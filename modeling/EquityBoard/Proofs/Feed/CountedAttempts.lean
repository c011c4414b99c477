import EquityBoard.Proofs.Feed.RepeatedAttempts

/-!
# Attempts counted in 32 bits

The report of a failed attempt says which one it was and how many there are at most, and both numbers
are sums of 32 bits. They never overflow, and the reports count right, unless a policy repeats as often
as 32 bits can say: then the total overflows, and the first failure that may pass stops the attempts.
Main statement: `countsRight_iff`.
-/

namespace EquityBoard.Feed

open Decimal (Overflow Width Work)

variable {α : Type}

namespace RetryPolicy

variable (p : RetryPolicy) (draws : Draws) (results : Nat → Except Failure α)

/-! ## Acts of all attempts -/

/-- What becomes of results that come in turn: what the attempts give, the number of calls, and all
acts. -/
def written : Except Overflow (Except Failure α × List RetryReport) × Nat × List Act :=
  (p.attempts draws (.written (replies results)) p.maxRetries 0).run.run (0, [])

/-- The number of calls is that of the attempts that are not written down. -/
theorem run_eq_written :
    (p.run draws (replies results)).run.run 0 =
      ((p.written draws results).1, (p.written draws results).2.1) :=
  p.run_attempts_written draws (replies results) p.maxRetries 0 0 []

/-- A final result leaves nothing to report. -/
theorem written_of_isFinal (h : IsFinal (results 0)) :
    p.written draws results = (.ok (results 0, []), 1, [.call]) :=
  p.run_attempts_of_isFinal draws (.written (replies results)) p.maxRetries 0 (0, []) h

/-- The total of a policy that repeats as often as 32 bits can say overflows. -/
theorem report_eq_error (hmax : p.maxRetries = 0xFFFFFFFF) (attempt : Nat) (e : Failure) :
    p.report draws attempt e = .error .add := by
  have htotal : Width.unsigned32.add p.maxRetries 1 = .error .add := by
    refine Width.add_eq_error ?_
    show (0xFFFFFFFF : Int) < p.maxRetries + 1
    omega
  rw [report]
  -- whichever of the two sums is the first to overflow
  cases hnumber : Width.unsigned32.add attempt 1 with
  | error overflow =>
    rw [Width.eq_of_keep_eq_error hnumber]
    rfl
  | ok number =>
    rw [htotal]
    rfl

/-- Where the total overflows, the first failure that may pass stops the attempts. -/
theorem written_of_greatest (hmax : p.maxRetries = 0xFFFFFFFF) (h : ¬ IsFinal (results 0)) :
    p.written draws results = (.error .add, 1, [.call]) := by
  obtain ⟨e, hresult, he⟩ := exists_of_not_isFinal h
  have hcall : (Surroundings.written (replies results)).call.run (0, []) =
      (.error e, 1, [.call]) :=
    Prod.ext hresult rfl
  obtain ⟨left, hleft⟩ := Nat.exists_eq_add_one_of_ne_zero (show p.maxRetries ≠ 0 by omega)
  rw [written, hleft]
  exact run_attempts_of_overflow hcall he left (p.report_eq_error draws hmax 0 e)

/-! ## Numbers in the reports -/

/-- The numbers of calls that results one after another can lead to. -/
def callCounts (α : Type) : Set Nat :=
  {calls | ∃ results : Nat → Except Failure α,
    ((p.run draws (replies results)).run.run 0).2 = calls}

/-- A policy allows one call and all repetitions. -/
theorem isGreatest_callCounts (hmax : p.maxRetries < 0xFFFFFFFF) :
    IsGreatest (p.callCounts draws α) (p.maxRetries + 1) := by
  constructor
  · let lost : Nat → Except Failure α := fun _ => .error .noAnswer
    obtain ⟨k, reports, hk, hrun, -⟩ := p.run_replies draws hmax lost
    refine ⟨lost, ?_⟩
    rw [hrun]
    rcases hk.1 with hall | ⟨i, -, hfinal⟩
    · exact hall
    · exact hfinal.elim
  · rintro calls ⟨results, rfl⟩
    obtain ⟨k, reports, hk, hrun, -⟩ := p.run_replies draws hmax results
    rw [hrun]
    exact hk.2 (Or.inl rfl)

/-- Every report is that of an attempt that another one may follow. -/
theorem exists_of_report_mem (hmax : p.maxRetries < 0xFFFFFFFF) {r : RetryReport}
    (h : .report r ∈ (p.written draws results).2.2) :
    ∃ i < p.maxRetries, ∃ e, r = ⟨i + 1, p.maxRetries + 1, p.delay draws i, e⟩ := by
  obtain ⟨k, reports, hk, -, hlength, hreports, hwritten⟩ := p.run_replies draws hmax results
  have hacts : (p.written draws results).2.2 =
      reports.flatMap (fun r => [.call, .report r, .sleep r.delay]) ++ [.call] :=
    congrArg (·.2.2) hwritten
  have hmem : r ∈ reports := by
    simpa [hacts] using h
  obtain ⟨i, hi⟩ := List.mem_iff_getElem?.1 hmem
  have hlt : i < k - 1 := hlength ▸ (List.getElem?_eq_some_iff.1 hi).1
  have hle : k ≤ p.maxRetries + 1 := hk.2 (Or.inl rfl)
  obtain ⟨e, -, hreport⟩ := hreports i hlt
  exact ⟨i, by omega, e, Option.some.inj (hi.symm.trans hreport)⟩

/-- The attempts count right: no sum overflows, and every report tells the number of its attempt,
which is not the last one, and of all the calls that the policy allows. -/
structure CountsRight : Prop where
  noOverflow : ∃ outcome, (p.written draws results).1 = .ok outcome
  isAttempt : ∀ r, .report r ∈ (p.written draws results).2.2 →
    1 ≤ r.attempt ∧ r.attempt < r.maxAttempts
  isTotal : ∀ r, .report r ∈ (p.written draws results).2.2 →
    IsGreatest (p.callCounts draws α) r.maxAttempts

theorem countsRight_of_lt (hmax : p.maxRetries < 0xFFFFFFFF) : p.CountsRight draws results where
  noOverflow := by
    obtain ⟨k, reports, -, -, -, -, hwritten⟩ := p.run_replies draws hmax results
    exact ⟨_, congrArg (·.1) hwritten⟩
  isAttempt r hr := by
    obtain ⟨i, hi, e, rfl⟩ := p.exists_of_report_mem draws results hmax hr
    show 1 ≤ i + 1 ∧ i + 1 < p.maxRetries + 1
    omega
  isTotal r hr := by
    obtain ⟨i, -, e, rfl⟩ := p.exists_of_report_mem draws results hmax hr
    exact p.isGreatest_callCounts draws hmax

variable {results}

theorem countsRight_of_isFinal (h : IsFinal (results 0)) : p.CountsRight draws results := by
  have hwritten := p.written_of_isFinal draws results h
  have hnone : ∀ r, .report r ∉ (p.written draws results).2.2 := fun r hr => by
    rw [hwritten] at hr
    cases List.mem_singleton.1 hr
  exact ⟨⟨_, congrArg (·.1) hwritten⟩, fun r hr => absurd hr (hnone r),
    fun r hr => absurd hr (hnone r)⟩

variable (results)

/-- With a number of repetitions of 32 bits the attempts count right unless it is the greatest one and
the first call fails in passing, and only then not. Then the attempts stop after this call with an
overflow, and nothing is reported. -/
theorem countsRight_iff (h : p.maxRetries ≤ 0xFFFFFFFF) :
    (p.CountsRight draws results ↔ p.maxRetries < 0xFFFFFFFF ∨ IsFinal (results 0)) ∧
    (p.maxRetries = 0xFFFFFFFF → ¬ IsFinal (results 0) →
      p.written draws results = (.error .add, 1, [.call]) ∧
      (p.run draws (replies results)).run.run 0 = (.error .add, 1)) := by
  constructor
  · constructor
    · intro hright
      by_contra hneither
      obtain ⟨hlt, hfinal⟩ := not_or.1 hneither
      obtain ⟨outcome, houtcome⟩ := hright.noOverflow
      rw [p.written_of_greatest draws results (by omega) hfinal] at houtcome
      cases houtcome
    · rintro (hlt | hfinal)
      · exact p.countsRight_of_lt draws results hlt
      · exact p.countsRight_of_isFinal draws hfinal
  · intro hmax hfinal
    have hwritten := p.written_of_greatest draws results hmax hfinal
    exact ⟨hwritten, by rw [run_eq_written, hwritten]⟩

/-- One repetition less than the most, and a failure that may pass before a success. -/
theorem countsRight_of_most :
    let p : RetryPolicy := { maxRetries := 0xFFFFFFFE }
    let results : Nat → Except Failure Nat := fun
      | 0 => .error (.status 503 "http://h/series")
      | _ => .ok 7
    p.maxRetries ≤ 0xFFFFFFFF ∧ p.CountsRight {} results := by
  intro p results
  have hmax : p.maxRetries ≤ 0xFFFFFFFF := by decide
  exact ⟨hmax, (p.countsRight_iff {} results hmax).1.2 (.inl (by decide))⟩

/-- With the most repetitions the same failure stops the attempts, although a success would follow. -/
theorem not_countsRight_of_greatest :
    let p : RetryPolicy := { maxRetries := 0xFFFFFFFF }
    let results : Nat → Except Failure Nat := fun
      | 0 => .error (.status 503 "http://h/series")
      | _ => .ok 7
    (p.run {} (replies results)).run.run 0 = (.error .add, 1) ∧ ¬ p.CountsRight {} results := by
  intro p results
  have hpassing : ¬ IsFinal (results 0) := not_isFinal (by decide)
  have hwritten := p.written_of_greatest {} results rfl hpassing
  refine ⟨by rw [run_eq_written, hwritten], fun hright => ?_⟩
  obtain ⟨outcome, houtcome⟩ := hright.noOverflow
  rw [hwritten] at houtcome
  cases houtcome

end RetryPolicy

end EquityBoard.Feed
