import EquityBoard.Feed.Retry
import Mathlib.Order.Bounds.Basic

/-!
# How often an operation is attempted

The first result that is final ends the attempts, and so does the last one that the policy allows.
Every attempt before it has failed in passing: it is reported with its number and its own failure, and
then time passes. The surroundings `Surroundings.written` write these acts down one after another and
change nothing else (`run_attempts_written`). Main statement: `run_replies`.
-/

namespace EquityBoard.Feed

open Decimal (Overflow Width Work)

variable {σ α : Type}

/-! ## Final results -/

/-- Whether a result ends the attempts: a success, or a failure that does not pass. -/
def IsFinal : Except Failure α → Prop
  | .ok _ => True
  | .error (.status code _) =>
    code ≠ 408 ∧ code ≠ 429 ∧ code ≠ 500 ∧ code ≠ 502 ∧ code ≠ 503 ∧ code ≠ 504
  | .error .noAnswer => False
  | .error _ => True

theorem isFinal_error_iff (e : Failure) :
    IsFinal (.error e : Except Failure α) ↔ e.isPassing = false := by
  cases e with
  | status code url => simp [IsFinal, Failure.isPassing, Failure.isPassingStatus]
  | noAnswer => exact iff_of_false id nofun
  | badAddress => exact iff_of_true trivial rfl
  | undecodable => exact iff_of_true trivial rfl
  | badBatch error => exact iff_of_true trivial rfl
  | other message => exact iff_of_true trivial rfl

/-- A result that is not final is a failure that may pass. -/
theorem exists_of_not_isFinal {r : Except Failure α} (h : ¬ IsFinal r) :
    ∃ e, r = .error e ∧ e.isPassing = true := by
  cases r with
  | ok a => exact absurd trivial h
  | error e =>
    rw [isFinal_error_iff, Bool.not_eq_false] at h
    exact ⟨e, rfl, h⟩

theorem not_isFinal {e : Failure} (he : e.isPassing = true) :
    ¬ IsFinal (.error e : Except Failure α) := by
  rw [isFinal_error_iff, he]
  nofun

namespace RetryPolicy

variable (p : RetryPolicy) (draws : Draws) (s : Surroundings σ α)

/-! ## One attempt -/

/-- A final result ends the attempts. -/
theorem run_attempts_of_isFinal (left attempt : Nat) (st : σ) (h : IsFinal (s.call.run st).1) :
    (p.attempts draws s left attempt).run.run st =
      (.ok ((s.call.run st).1, []), (s.call.run st).2) := by
  unfold attempts
  rw [Work.run_bind_lift]
  cases hresult : (s.call.run st).1 with
  | ok a => rfl
  | error e =>
    rw [hresult, isFinal_error_iff] at h
    show ((if e.isPassing then _ else _ : Work σ _).run.run _) = _
    rw [if_neg (Bool.eq_false_iff.1 h)]
    rfl

/-- After the last attempt that is allowed nothing is reported. -/
theorem run_attempts_zero (attempt : Nat) (st : σ) :
    (p.attempts draws s 0 attempt).run.run st =
      (.ok ((s.call.run st).1, []), (s.call.run st).2) := by
  unfold attempts
  rw [Work.run_bind_lift]
  cases (s.call.run st).1 with
  | ok a => rfl
  | error e =>
    show ((if e.isPassing then _ else _ : Work σ _).run.run _) = _
    split <;> rfl

section Passing

variable {p draws s} {st st' : σ} {e : Failure} (hcall : s.call.run st = (.error e, st'))
  (he : e.isPassing = true) (left : Nat) {attempt : Nat}
include hcall he

/-- After a failure that may pass comes the report, if its numbers have 32 bits, and then the rest. -/
theorem run_attempts_of_passing :
    (p.attempts draws s (left + 1) attempt).run.run st =
      ((do
        let report ← p.report draws attempt e
        s.report report
        s.sleep report.delay
        let (result, reports) ← p.attempts draws s left (attempt + 1)
        return (result, report :: reports) : Work σ _).run.run st') := by
  rw [attempts, Work.run_bind_lift, hcall]
  show ((if e.isPassing then _ else _ : Work σ _).run.run st') = _
  rw [if_pos he]

/-- The report is made, and another attempt follows. -/
theorem run_attempts_of_report {r : RetryReport} (hreport : p.report draws attempt e = .ok r) :
    (p.attempts draws s (left + 1) attempt).run.run st =
      let rested := ((s.sleep r.delay).run ((s.report r).run st').2).2
      let later := (p.attempts draws s left (attempt + 1)).run.run rested
      (later.1.map fun last => (last.1, r :: last.2), later.2) := by
  have hreported := Work.run_lift_except (p.report draws attempt e) st'
  rw [hreport] at hreported
  rw [run_attempts_of_passing hcall he, hreport, Work.run_bind_of_ok hreported,
    Work.run_bind_lift, Work.run_bind_lift]
  exact Work.run_bind_pure (p.attempts draws s left (attempt + 1))
    (fun last => (last.1, r :: last.2)) _

/-- If the numbers of the report overflow, the attempts stop. -/
theorem run_attempts_of_overflow {overflow : Overflow}
    (hreport : p.report draws attempt e = .error overflow) :
    (p.attempts draws s (left + 1) attempt).run.run st = (.error overflow, st') := by
  have hstopped := Work.run_lift_except (p.report draws attempt e) st'
  rw [hreport] at hstopped
  rw [run_attempts_of_passing hcall he, hreport, Work.run_bind_of_error hstopped]

end Passing

/-- An operation whose result is final is attempted once. -/
theorem run_of_isFinal (operation : StateM σ (Except Failure α)) (st : σ)
    (h : IsFinal (operation.run st).1) :
    (p.run draws operation).run.run st =
      (.ok ((operation.run st).1, []), (operation.run st).2) :=
  p.run_attempts_of_isFinal draws { call := operation } p.maxRetries 0 st h

/-- The numbers of a report are exact as long as 32 bits hold them. -/
theorem report_eq_ok {attempt : Nat} (hattempt : attempt < 0xFFFFFFFF)
    (hmax : p.maxRetries < 0xFFFFFFFF) (e : Failure) :
    p.report draws attempt e =
      .ok ⟨attempt + 1, p.maxRetries + 1, p.delay draws attempt, e⟩ := by
  have hsum : ∀ n : Nat, n < 0xFFFFFFFF → Width.unsigned32.add n 1 = .ok (n + 1) := fun n hn => by
    refine Width.add_eq_ok ?_
    show (0 : Int) ≤ n + 1 ∧ (n + 1 : Int) ≤ 0xFFFFFFFF
    omega
  rw [report, hsum attempt hattempt, hsum p.maxRetries hmax]
  rfl

end RetryPolicy

/-! ## All acts of the attempts -/

/-- What is done to get a result. -/
inductive Act where
  | call
  | report (r : RetryReport)
  | sleep (delay : Nat)

/-- Surroundings that write down every act. -/
def Surroundings.written (operation : StateM σ (Except Failure α)) :
    Surroundings (σ × List Act) α where
  call := fun (st, acts) => ((operation.run st).1, (operation.run st).2, acts ++ [.call])
  report r := modify fun (st, acts) => (st, acts ++ [.report r])
  sleep delay := modify fun (st, acts) => (st, acts ++ [.sleep delay])

/-- The acts of an attempt that another one follows. -/
def RetryReport.acts (r : RetryReport) : List Act := [.call, .report r, .sleep r.delay]

namespace RetryPolicy

variable (p : RetryPolicy) (draws : Draws)

/-- To write the acts down changes nothing. -/
theorem run_attempts_written (operation : StateM σ (Except Failure α)) (left attempt : Nat) (st : σ)
    (acts : List Act) :
    let written := (p.attempts draws (.written operation) left attempt).run.run (st, acts)
    (p.attempts draws { call := operation } left attempt).run.run st =
      (written.1, written.2.1) := by
  induction left generalizing attempt st acts with
  | zero =>
    rw [run_attempts_zero, run_attempts_zero]
    rfl
  | succ left ih =>
    by_cases hfinal : IsFinal (operation.run st).1
    · rw [p.run_attempts_of_isFinal draws { call := operation } (left + 1) attempt st hfinal,
        p.run_attempts_of_isFinal draws (.written operation) (left + 1) attempt (st, acts) hfinal]
      rfl
    · obtain ⟨e, hresult, he⟩ := exists_of_not_isFinal hfinal
      have hcall : operation.run st = (.error e, (operation.run st).2) := Prod.ext hresult rfl
      have hwritten : (Surroundings.written operation).call.run (st, acts) =
          (.error e, (operation.run st).2, acts ++ [.call]) := Prod.ext hresult rfl
      cases hreport : p.report draws attempt e with
      | error overflow =>
        rw [run_attempts_of_overflow (s := { call := operation }) hcall he left hreport,
          run_attempts_of_overflow hwritten he left hreport]
      | ok r =>
        rw [run_attempts_of_report (s := { call := operation }) hcall he left hreport,
          run_attempts_of_report hwritten he left hreport]
        -- the report and the delay are written down before the later attempts
        have hlater := ih (attempt + 1) (operation.run st).2
          (acts ++ [.call] ++ [.report r] ++ [.sleep r.delay])
        exact congrArg (fun later => (later.1.map fun last => (last.1, r :: last.2), later.2)) hlater

/-! ## Results in turn -/

/-- The operation that has the results of a sequence one after another; its state is the number of
calls. -/
def replies (results : Nat → Except Failure α) : StateM Nat (Except Failure α) :=
  fun calls => (results calls, calls + 1)

/-- The attempts end with the first final result, or when none is left. Each of those before fails in
passing, is reported and followed by its delay. -/
theorem run_attempts_replies (hmax : p.maxRetries < 0xFFFFFFFF)
    (results : Nat → Except Failure α) {left attempt : Nat}
    (hleft : attempt + left ≤ p.maxRetries) (acts : List Act) :
    ∃ n ≤ left, ∃ reports,
      (p.attempts draws (.written (replies results)) left attempt).run.run (attempt, acts) =
        (.ok (results (attempt + n), reports), attempt + n + 1,
          acts ++ (reports.flatMap RetryReport.acts ++ [.call])) ∧
      (n = left ∨ IsFinal (results (attempt + n))) ∧
      (∀ i < n, ¬ IsFinal (results (attempt + i))) ∧
      reports.length = n ∧
      ∀ i < n, ∃ e, results (attempt + i) = .error e ∧
        reports[i]? = some
          ⟨attempt + i + 1, p.maxRetries + 1, p.delay draws (attempt + i), e⟩ := by
  induction left generalizing attempt acts with
  | zero =>
    refine ⟨0, Nat.le_refl 0, [], ?_, Or.inl rfl, nofun, rfl, nofun⟩
    rw [run_attempts_zero]
    rfl
  | succ left ih =>
    by_cases hfinal : IsFinal (results attempt)
    · refine ⟨0, Nat.zero_le _, [], ?_, Or.inr hfinal, nofun, rfl, nofun⟩
      exact p.run_attempts_of_isFinal draws (.written (replies results)) _ _ (attempt, acts) hfinal
    · obtain ⟨e, hresult, he⟩ := exists_of_not_isFinal hfinal
      have hcall : (Surroundings.written (replies results)).call.run (attempt, acts) =
          (.error e, attempt + 1, acts ++ [.call]) :=
        Prod.ext hresult rfl
      have hnext : attempt + 1 + left ≤ p.maxRetries := by omega
      have hreport := p.report_eq_ok draws (show attempt < 0xFFFFFFFF by omega) hmax e
      generalize hr : RetryReport.mk (attempt + 1) _ _ e = r at hreport
      obtain ⟨n, hn, reports, hrun, hlast, hbefore, hlength, hreports⟩ :=
        ih hnext (acts ++ [.call] ++ [.report r] ++ [.sleep r.delay])
      have hshift : ∀ i, attempt + 1 + i = attempt + (i + 1) := fun i => by omega
      simp only [hshift] at hrun hlast hbefore hreports
      refine ⟨n + 1, by omega, r :: reports, ?_, hlast.imp_left (congrArg (· + 1)), ?_, ?_, ?_⟩
      · have hlater := congrArg
          (fun later => (later.1.map fun last => (last.1, r :: last.2), later.2)) hrun
        refine ((run_attempts_of_report hcall he left hreport).trans hlater).trans ?_
        simp [Except.map, RetryReport.acts]
      · intro i hi
        cases i with
        | zero => exact hfinal
        | succ i => exact hbefore i (by omega)
      · rw [List.length_cons, hlength]
      · intro i hi
        cases i with
        | zero => exact ⟨e, hresult, congrArg some hr.symm⟩
        | succ i => exact hreports i (by omega)

/-- How often an operation is called, for a policy whose attempts can be counted and results that come
in turn. The number of calls is the least of the number that the policy allows and the place of the
first final result. The last of them decides. All before it are reported with their numbers and their
own failures, and each report is followed by its delay; after the last call nothing is done. -/
theorem run_replies (h : p.maxRetries < 0xFFFFFFFF) (results : Nat → Except Failure α) :
    ∃ k reports,
      IsLeast {n | n = p.maxRetries + 1 ∨ ∃ i, n = i + 1 ∧ IsFinal (results i)} k ∧
      (p.run draws (replies results)).run.run 0 = (.ok (results (k - 1), reports), k) ∧
      reports.length = k - 1 ∧
      (∀ i < k - 1, ∃ e, results i = .error e ∧
        reports[i]? = some ⟨i + 1, p.maxRetries + 1, p.delay draws i, e⟩) ∧
      (p.attempts draws (.written (replies results)) p.maxRetries 0).run.run (0, []) =
        (.ok (results (k - 1), reports), k,
          reports.flatMap (fun r => [.call, .report r, .sleep r.delay]) ++ [.call]) := by
  obtain ⟨n, hn, reports, hwritten, hlast, hbefore, hlength, hreports⟩ :=
    p.run_attempts_replies draws h results (Nat.le_of_eq (Nat.zero_add p.maxRetries)) []
  simp only [Nat.zero_add] at hwritten hlast hbefore hreports
  have hrun := p.run_attempts_written draws (replies results) p.maxRetries 0 0 []
  rw [hwritten] at hrun
  refine ⟨n + 1, reports, ⟨?_, ?_⟩, hrun, hlength, hreports, hwritten⟩
  · rcases hlast with rfl | hfinal
    · exact Or.inl rfl
    · exact Or.inr ⟨n, rfl, hfinal⟩
  · rintro m (rfl | ⟨i, rfl, hfinal⟩)
    · omega
    · have hle : ¬ i < n := fun hi => hbefore i hi hfinal
      omega

/-- Two failures that may pass and then one that does not: of four attempts the third is the last. -/
theorem run_replies_of_missing :
    let p : RetryPolicy := { maxRetries := 3 }
    let results : Nat → Except Failure Nat := fun
      | 0 => .error (.status 503 "http://h/series")
      | 1 => .error .noAnswer
      | 2 => .error (.status 404 "http://h/series")
      | _ => .ok 7
    p.maxRetries < 0xFFFFFFFF ∧
      ∃ reports, (p.run {} (replies results)).run.run 0 =
        (.ok (.error (.status 404 "http://h/series"), reports), 3) ∧ reports.length = 2 := by
  intro p results
  have hmax : p.maxRetries < 0xFFFFFFFF := by decide
  obtain ⟨k, reports, hk, hrun, hlength, -, -⟩ := p.run_replies {} hmax results
  have hthird : IsLeast {n | n = p.maxRetries + 1 ∨ ∃ i, n = i + 1 ∧ IsFinal (results i)} 3 := by
    refine ⟨Or.inr ⟨2, rfl, by decide, by decide, by decide, by decide, by decide, by decide⟩, ?_⟩
    rintro n (rfl | ⟨i, rfl, hfinal⟩)
    · decide
    · match i with
      | 0 => exact absurd rfl hfinal.2.2.2.2.1
      | 1 => exact hfinal.elim
      | i + 2 => omega
  obtain rfl : k = 3 := hk.unique hthird
  exact ⟨hmax, reports, hrun, hlength⟩

end RetryPolicy

end EquityBoard.Feed
