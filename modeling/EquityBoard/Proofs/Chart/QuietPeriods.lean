import EquityBoard.Debounce
import Mathlib.Data.List.Basic

/-!
# Quiet periods

A job that is put on hold runs exactly if a quiet period of the delay follows it, in which no other
job comes and nothing is cancelled (`due?`). Jobs are carried out by tasks of a runtime that sleep
for the delay. What a debouncer asks of the runtime is little (`TaskRuntime.Lawful`): a task sleeps
from its start on, an aborted one does not wake up, and a sleep ends when its time is over. On every
such runtime a debouncer that holds the handle of its latest task does what `Debouncer` says
(`TaskRuntime.Carries`). Main statement: `fired_run`.
-/

namespace EquityBoard

variable {α σ τ : Type}

/-! ## Steps and runs -/

/-- What happens to a debouncer: a job is put on hold, time passes, or the waiting job is dropped. -/
inductive DebounceStep (α : Type) where
  | schedule (job : α)
  | advance (ms : Nat)
  | cancel

namespace Debouncer

/-- The debouncer after a step, and the job that ran. -/
def step (d : Debouncer α) : DebounceStep α → Debouncer α × List α
  | .schedule job => (d.schedule job, [])
  | .advance ms => ((d.advance ms).1, (d.advance ms).2.toList)
  | .cancel => (d.cancel, [])

/-- The debouncer after a run of steps, and the jobs that ran, in their order. -/
def run (d : Debouncer α) : List (DebounceStep α) → Debouncer α × List α
  | [] => (d, [])
  | s :: steps =>
    let (d, first) := d.step s
    let (d, later) := d.run steps
    (d, first ++ later)

end Debouncer

/-! ## Jobs with a quiet period -/

namespace DebounceStep

/-- The time that passes until the next job comes or the waiting one is dropped, or until the end. -/
def quietTime : List (DebounceStep α) → Nat
  | .advance ms :: steps => ms + quietTime steps
  | _ => 0

/-- The job that the first of some steps puts on hold, if the steps after it are quiet for the
delay. -/
def due? (delay : Nat) : List (DebounceStep α) → Option α
  | .schedule job :: later => if delay ≤ quietTime later then some job else none
  | _ => none

/-- The jobs that are put on hold and followed by a quiet period, in their order. -/
def dueJobs (delay : Nat) (steps : List (DebounceStep α)) : List α :=
  steps.tails.filterMap (due? delay)

/-- A job that is due after some time still waits after the steps: no other job comes, the quiet is
too short for it, and it is not dropped. -/
def Outlasts (left : Nat) (steps : List (DebounceStep α)) : Prop :=
  (∀ job, .schedule job ∉ steps) ∧ ¬ left ≤ quietTime steps ∧ .cancel ∉ steps

/-- The job that was put on hold last has neither run nor been dropped. -/
def IsWaiting (delay : Nat) (steps : List (DebounceStep α)) : Prop :=
  ∃ before job later, steps = before ++ .schedule job :: later ∧ Outlasts delay later

@[simp] theorem quietTime_advance (ms : Nat) (steps : List (DebounceStep α)) :
    quietTime (.advance ms :: steps) = ms + quietTime steps := rfl

/-- Whether the first step has a due job is decided by what follows it. -/
theorem dueJobs_cons (delay : Nat) (s : DebounceStep α) (steps : List (DebounceStep α)) :
    dueJobs delay (s :: steps) = (due? delay (s :: steps)).toList ++ dueJobs delay steps := by
  show ((s :: steps) :: steps.tails).filterMap (due? delay) = _ ++ steps.tails.filterMap (due? delay)
  rw [List.filterMap_cons]
  cases due? delay (s :: steps) <;> rfl

/-- As long as only time passes, the time that is left runs down. -/
theorem outlasts_advance (left ms : Nat) (steps : List (DebounceStep α)) :
    Outlasts left (.advance ms :: steps) ↔ ms < left ∧ Outlasts (left - ms) steps := by
  have htime : ¬ left ≤ ms + quietTime steps ↔ ms < left ∧ ¬ left - ms ≤ quietTime steps := by
    omega
  simp only [Outlasts, quietTime_advance, htime, List.mem_cons, reduceCtorEq, false_or]
  tauto

/-- A waiting job does not outlast the next one. -/
theorem not_outlasts_schedule (left : Nat) (job : α) (steps : List (DebounceStep α)) :
    ¬ Outlasts left (.schedule job :: steps) := fun h => h.1 job List.mem_cons_self

theorem not_outlasts_cancel (left : Nat) (steps : List (DebounceStep α)) :
    ¬ Outlasts left (.cancel :: steps) := fun h => h.2.2 List.mem_cons_self

/-- A job waits if the first step put it on hold and it outlasts the rest, or if it came later. -/
theorem isWaiting_cons (delay : Nat) (s : DebounceStep α) (steps : List (DebounceStep α)) :
    IsWaiting delay (s :: steps) ↔
      (∃ job, s = .schedule job ∧ Outlasts delay steps) ∨ IsWaiting delay steps := by
  constructor
  · rintro ⟨before, job, later, hsteps, hlater⟩
    cases before with
    | nil =>
      obtain ⟨rfl, rfl⟩ := List.cons.inj hsteps
      exact Or.inl ⟨job, rfl, hlater⟩
    | cons first before =>
      obtain ⟨-, rfl⟩ := List.cons.inj hsteps
      exact Or.inr ⟨before, job, later, rfl, hlater⟩
  · rintro (⟨job, rfl, hlater⟩ | ⟨before, job, later, rfl, hlater⟩)
    · exact ⟨[], job, steps, rfl, hlater⟩
    · exact ⟨s :: before, job, later, rfl, hlater⟩

end DebounceStep

open DebounceStep

namespace Debouncer

/-- A job that waits has some time left. -/
def HasTime (waiting? : Option (α × Nat)) : Prop := ∀ w ∈ waiting?, 1 ≤ w.2

theorem hasTime_none : HasTime (none : Option (α × Nat)) := nofun

theorem hasTime_some_iff (job : α) (left : Nat) : HasTime (some (job, left)) ↔ 1 ≤ left := by
  simp [HasTime]

/-- The job that waits, if the steps begin with enough quiet for it. -/
def waitingJob? (waiting? : Option (α × Nat)) (steps : List (DebounceStep α)) : Option α :=
  waiting?.bind fun w => if w.2 ≤ quietTime steps then some w.1 else none

theorem run_cons (d : Debouncer α) (s : DebounceStep α) (steps : List (DebounceStep α)) :
    d.run (s :: steps) =
      (((d.step s).1.run steps).1, (d.step s).2 ++ ((d.step s).1.run steps).2) := rfl

/-- Without quiet no waiting job gets its turn. -/
theorem waitingJob?_of_quietTime_eq {waiting? : Option (α × Nat)} {steps : List (DebounceStep α)}
    (hwaiting : HasTime waiting?) (hsteps : quietTime steps = 0) :
    waitingJob? waiting? steps = none := by
  cases waiting? with
  | none => rfl
  | some w =>
    have hw := hwaiting w rfl
    exact if_neg (by omega)

/-- As long as only time passes, the waiting job needs so much less quiet after it. -/
theorem waitingJob?_advance_of_lt {left ms : Nat} {steps : List (DebounceStep α)} (job : α)
    (h : ms < left) :
    waitingJob? (some (job, left)) (.advance ms :: steps) =
      waitingJob? (some (job, left - ms)) steps := by
  refine ite_congr (propext ?_) (fun _ => rfl) fun _ => rfl
  show left ≤ ms + quietTime steps ↔ left - ms ≤ quietTime steps
  omega

theorem waitingJob?_advance_of_le {left ms : Nat} {steps : List (DebounceStep α)} (job : α)
    (h : left ≤ ms) : waitingJob? (some (job, left)) (.advance ms :: steps) = some job :=
  if_pos (Nat.le_add_right_of_le h)

/-- Once its time is up a job runs. -/
theorem advance_of_le {delay left ms : Nat} (job : α) (h : left ≤ ms) :
    advance ⟨delay, some (job, left)⟩ ms = (⟨delay, none⟩, some job) := if_pos h

/-- Before its time is up a job waits for what is left. -/
theorem advance_of_lt {delay left ms : Nat} (job : α) (h : ms < left) :
    advance ⟨delay, some (job, left)⟩ ms = (⟨delay, some (job, left - ms)⟩, none) :=
  if_neg (Nat.not_le_of_lt h)

theorem step_advance_of_le {delay left ms : Nat} (job : α) (h : left ≤ ms) :
    step ⟨delay, some (job, left)⟩ (.advance ms) = (⟨delay, none⟩, [job]) := by
  rw [step, advance_of_le job h]
  rfl

theorem step_advance_of_lt {delay left ms : Nat} (job : α) (h : ms < left) :
    step ⟨delay, some (job, left)⟩ (.advance ms) = (⟨delay, some (job, left - ms)⟩, []) := by
  rw [step, advance_of_lt job h]
  rfl

variable {delay : Nat}

/-- What runs is the job that waits already, if it is given its time, and then the jobs that are
followed by a quiet period. -/
theorem snd_run (hdelay : 1 ≤ delay) {waiting? : Option (α × Nat)}
    (hwaiting : HasTime waiting?) (steps : List (DebounceStep α)) :
    (Debouncer.run ⟨delay, waiting?⟩ steps).2 =
      (waitingJob? waiting? steps).toList ++ dueJobs delay steps := by
  induction steps generalizing waiting? with
  | nil =>
    rw [waitingJob?_of_quietTime_eq hwaiting rfl]
    rfl
  | cons s steps ih =>
    rw [run_cons, dueJobs_cons]
    cases s with
    | schedule job =>
      rw [waitingJob?_of_quietTime_eq hwaiting rfl]
      -- the new job waits instead of the one that waited
      exact @ih (some (job, delay)) ((hasTime_some_iff job delay).2 hdelay)
    | cancel =>
      rw [waitingJob?_of_quietTime_eq hwaiting rfl]
      exact @ih none hasTime_none
    | advance ms =>
      cases waiting? with
      | none => exact @ih none hasTime_none
      | some w =>
        obtain ⟨job, left⟩ := w
        rcases Nat.lt_or_ge ms left with hlt | hle
        · have htime : HasTime (some (job, left - ms)) :=
            (hasTime_some_iff job (left - ms)).2 (Nat.sub_pos_of_lt hlt)
          rw [step_advance_of_lt job hlt, waitingJob?_advance_of_lt job hlt]
          exact ih htime
        · rw [step_advance_of_le job hle, waitingJob?_advance_of_le job hle]
          show job :: (Debouncer.run ⟨delay, none⟩ steps).2 = job :: dueJobs delay steps
          rw [@ih none hasTime_none]
          rfl

/-- After a run a job waits that waited already, or the one that was put on hold last. -/
theorem isPending_run (hdelay : 1 ≤ delay) {waiting? : Option (α × Nat)}
    (hwaiting : HasTime waiting?) (steps : List (DebounceStep α)) :
    (Debouncer.run ⟨delay, waiting?⟩ steps).1.isPending = true ↔
      (∃ w ∈ waiting?, Outlasts w.2 steps) ∨ IsWaiting delay steps := by
  induction steps generalizing waiting? with
  | nil =>
    have hwait : ¬ IsWaiting delay ([] : List (DebounceStep α)) := by
      rintro ⟨before, job, later, hsteps, -⟩
      simp at hsteps
    rw [or_iff_left hwait]
    show waiting?.isSome = true ↔ _
    rw [Option.isSome_iff_exists]
    refine exists_congr fun w => ⟨fun hw => ⟨hw, nofun, ?_, nofun⟩, And.left⟩
    exact Nat.not_le_of_lt (hwaiting w hw)
  | cons s steps ih =>
    rw [run_cons, isWaiting_cons]
    cases s with
    | schedule job =>
      have hold : ¬ ∃ w ∈ waiting?, Outlasts w.2 (.schedule job :: steps) := by
        rintro ⟨w, -, hw⟩
        exact not_outlasts_schedule w.2 job steps hw
      refine (@ih (some (job, delay)) ((hasTime_some_iff job delay).2 hdelay)).trans ?_
      rw [or_iff_right hold]
      simp
    | cancel =>
      have hold : ¬ ∃ w ∈ waiting?, Outlasts w.2 (.cancel :: steps) := by
        rintro ⟨w, -, hw⟩
        exact not_outlasts_cancel w.2 steps hw
      refine (@ih none hasTime_none).trans ?_
      rw [or_iff_right hold]
      simp
    | advance ms =>
      simp only [outlasts_advance, reduceCtorEq, false_and, exists_false, false_or]
      cases waiting? with
      | none =>
        refine (@ih none hasTime_none).trans ?_
        simp
      | some w =>
        obtain ⟨job, left⟩ := w
        rcases Nat.lt_or_ge ms left with hlt | hle
        · have htime : HasTime (some (job, left - ms)) :=
            (hasTime_some_iff job (left - ms)).2 (Nat.sub_pos_of_lt hlt)
          rw [step_advance_of_lt job hlt]
          refine (ih htime).trans ?_
          simp [hlt]
        · rw [step_advance_of_le job hle]
          refine (@ih none hasTime_none).trans ?_
          simp [Nat.not_lt_of_le hle]

end Debouncer

/-! ## Tasks of a runtime -/

/-- What a debouncer asks of the runtime that carries its tasks. A task sleeps for some time and then
runs its job. -/
structure TaskRuntime (α σ τ : Type) where
  /-- Starts a task and gives its handle. -/
  spawn : σ → Nat → α → σ × τ
  abort : σ → τ → σ
  /-- Lets time pass and gives the jobs that ran. -/
  advance : σ → Nat → σ × List α
  isFinished : σ → τ → Bool

/-- A task whose sleep is not over. -/
structure Sleeper (α τ : Type) where
  task : τ
  job : α
  left : Nat

/-- A debouncer that holds the handle of its latest task, and the state of the runtime. -/
structure TaskDebouncer (σ τ : Type) where
  delay : Nat
  task? : Option τ := none
  state : σ

namespace TaskRuntime

/-- What is known of a runtime, told by its sleeping tasks. -/
structure Lawful [DecidableEq τ] (r : TaskRuntime α σ τ) (sleepers : σ → List (Sleeper α τ)) :
    Prop where
  /-- A task sleeps from its start on, before time goes on. -/
  spawn : ∀ s delay job, sleepers (r.spawn s delay job).1 =
    sleepers s ++ [⟨(r.spawn s delay job).2, job, delay⟩]
  /-- A task that is aborted in its sleep does not wake up. -/
  abort : ∀ s t, sleepers (r.abort s t) = (sleepers s).filter fun x => x.task ≠ t
  /-- A sleep ends when its time is over, also exactly, and then the job runs. -/
  jobs : ∀ s ms, (r.advance s ms).2.Perm
    (((sleepers s).filter fun x => x.left ≤ ms).map (·.job))
  /-- The other tasks sleep on for the time that is left. -/
  advance : ∀ s ms, sleepers (r.advance s ms).1 =
    ((sleepers s).filter fun x => ms < x.left).map fun x => { x with left := x.left - ms }
  /-- A sleeping task is not finished. -/
  not_isFinished : ∀ s, ∀ x ∈ sleepers s, r.isFinished s x.task = false
  /-- A task is finished when its sleep has ended. -/
  isFinished_of_jobs : ∀ s ms, ∀ x ∈ sleepers s,
    (∀ y ∈ sleepers (r.advance s ms).1, y.task ≠ x.task) →
      r.isFinished (r.advance s ms).1 x.task = true
  /-- A finished task stays finished. -/
  isFinished_advance : ∀ s ms t, r.isFinished s t = true →
    r.isFinished (r.advance s ms).1 t = true

variable (r : TaskRuntime α σ τ)

/-- Aborts the latest task and forgets its handle. -/
def cancel (h : TaskDebouncer σ τ) : TaskDebouncer σ τ :=
  match h.task? with
  | none => h
  | some t => { h with task? := none, state := r.abort h.state t }

/-- Starts a task for a job instead of the latest one. -/
def schedule (h : TaskDebouncer σ τ) (job : α) : TaskDebouncer σ τ :=
  let h := r.cancel h
  let (state, t) := r.spawn h.state h.delay job
  { h with task? := some t, state }

/-- Whether the latest task has not come to its end. -/
def isPending (h : TaskDebouncer σ τ) : Bool := h.task?.any fun t => !r.isFinished h.state t

/-- The debouncer after a step, and the jobs that ran. -/
def step (h : TaskDebouncer σ τ) : DebounceStep α → TaskDebouncer σ τ × List α
  | .schedule job => (r.schedule h job, [])
  | .advance ms => ({ h with state := (r.advance h.state ms).1 }, (r.advance h.state ms).2)
  | .cancel => (r.cancel h, [])

/-- The debouncer after a run of steps, and the jobs that ran, in their order. -/
def run (h : TaskDebouncer σ τ) : List (DebounceStep α) → TaskDebouncer σ τ × List α
  | [] => (h, [])
  | s :: steps =>
    let (h, first) := r.step h s
    let (h, later) := run h steps
    (h, first ++ later)

/-! ## A debouncer on a runtime -/

/-- The runtime carries what waits: the latest task sleeps and no other one does, or none sleeps and
the latest one is finished. -/
inductive Carries (sleepers : σ → List (Sleeper α τ)) : TaskDebouncer σ τ → Debouncer α → Prop where
  | waiting {delay : Nat} {t : τ} {state : σ} {job : α} {left : Nat} :
      sleepers state = [⟨t, job, left⟩] →
      Carries sleepers ⟨delay, some t, state⟩ ⟨delay, some (job, left)⟩
  | idle {delay : Nat} {task? : Option τ} {state : σ} :
      sleepers state = [] → (∀ t ∈ task?, r.isFinished state t = true) →
      Carries sleepers ⟨delay, task?, state⟩ ⟨delay, none⟩

variable {r} [DecidableEq τ] {sleepers : σ → List (Sleeper α τ)} {h : TaskDebouncer σ τ}
  {d : Debouncer α}

/-- A cancelled task no longer sleeps. -/
theorem Carries.cancel (hr : r.Lawful sleepers) (hc : r.Carries sleepers h d) :
    r.Carries sleepers (r.cancel h) d.cancel := by
  cases hc with
  | waiting hstate =>
    refine .idle ?_ nofun
    rw [hr.abort, hstate]
    simp
  | @idle delay task? state hstate hfinished =>
    cases task? with
    | none => exact .idle hstate nofun
    | some t =>
      refine .idle ?_ nofun
      rw [hr.abort, hstate]
      rfl

/-- A new job has the only task that sleeps. -/
theorem Carries.schedule (hr : r.Lawful sleepers) (hc : r.Carries sleepers h d) (job : α) :
    r.Carries sleepers (r.schedule h job) (d.schedule job) := by
  obtain ⟨delay, waiting?⟩ := d
  have hcancel : r.Carries sleepers (r.cancel h) ⟨delay, none⟩ := hc.cancel hr
  unfold TaskRuntime.schedule
  generalize r.cancel h = h' at hcancel
  cases hcancel with
  | idle hstate _ =>
    refine .waiting ?_
    rw [hr.spawn, hstate]
    rfl

/-- As time passes the runtime runs the jobs that are due. -/
theorem Carries.advance (hr : r.Lawful sleepers) (hc : r.Carries sleepers h d) (ms : Nat) :
    r.Carries sleepers { h with state := (r.advance h.state ms).1 } (d.advance ms).1 ∧
      (r.advance h.state ms).2 = (d.advance ms).2.toList := by
  cases hc with
  | @waiting delay t state job left hstate =>
    have hjobs := hr.jobs state ms
    have hrest := hr.advance state ms
    rw [hstate] at hjobs hrest
    rcases Nat.lt_or_ge ms left with hlt | hle
    · -- the task sleeps on
      rw [List.filter_cons_of_neg (by simpa using hlt), List.filter_nil] at hjobs
      rw [List.filter_cons_of_pos (by simpa using hlt), List.filter_nil] at hrest
      rw [Debouncer.advance_of_lt job hlt]
      exact ⟨.waiting hrest, hjobs.eq_nil⟩
    · -- the task wakes up, and none sleeps any more
      rw [List.filter_cons_of_pos (by simpa using hle), List.filter_nil] at hjobs
      rw [List.filter_cons_of_neg (by simpa using hle), List.filter_nil] at hrest
      rw [Debouncer.advance_of_le job hle]
      refine ⟨.idle hrest ?_, List.perm_singleton.1 hjobs⟩
      rintro _ ⟨⟩
      refine hr.isFinished_of_jobs state ms ⟨t, job, left⟩ ?_ ?_
      · rw [hstate]
        exact List.mem_singleton_self _
      · rw [hrest]
        exact nofun
  | @idle delay task? state hstate hfinished =>
    have hjobs := hr.jobs state ms
    have hrest := hr.advance state ms
    rw [hstate] at hjobs hrest
    exact ⟨.idle hrest fun t ht => hr.isFinished_advance state ms t (hfinished t ht), hjobs.eq_nil⟩

/-- A job is pending exactly while its task is not finished. -/
theorem Carries.isPending_eq (hr : r.Lawful sleepers) (hc : r.Carries sleepers h d) :
    r.isPending h = d.isPending := by
  cases hc with
  | @waiting delay t state job left hstate =>
    have hasleep : r.isFinished state t = false := by
      refine hr.not_isFinished state ⟨t, job, left⟩ ?_
      rw [hstate]
      exact List.mem_singleton_self _
    show (!r.isFinished state t) = true
    rw [hasleep]
    rfl
  | @idle delay task? state hstate hfinished =>
    cases task? with
    | none => rfl
    | some t =>
      show (!r.isFinished state t) = false
      rw [hfinished t rfl]
      rfl

/-- Every step on the runtime is one of the debouncer, with the same jobs. -/
theorem Carries.step (hr : r.Lawful sleepers) (hc : r.Carries sleepers h d) (s : DebounceStep α) :
    r.Carries sleepers (r.step h s).1 (d.step s).1 ∧ (r.step h s).2 = (d.step s).2 := by
  cases s with
  | schedule job => exact ⟨hc.schedule hr job, rfl⟩
  | advance ms => exact hc.advance hr ms
  | cancel => exact ⟨hc.cancel hr, rfl⟩

/-- On a runtime the debouncer runs the same jobs, and the same job waits. -/
theorem Carries.run (hr : r.Lawful sleepers) (hc : r.Carries sleepers h d)
    (steps : List (DebounceStep α)) :
    r.Carries sleepers (r.run h steps).1 (d.run steps).1 ∧ (r.run h steps).2 = (d.run steps).2 := by
  induction steps generalizing h d with
  | nil => exact ⟨hc, rfl⟩
  | cons s steps ih =>
    obtain ⟨hstep, hfirst⟩ := hc.step hr s
    obtain ⟨hrest, hlater⟩ := ih hstep
    refine ⟨hrest, ?_⟩
    show (r.step h s).2 ++ (r.run (r.step h s).1 steps).2 = _
    rw [hfirst, hlater]
    rfl

end TaskRuntime

/-! ## Debounced jobs -/

/-- What runs, from a debouncer without a waiting job on, whatever the delay of at least a
millisecond: exactly the jobs that are followed by a quiet period of the delay, each once and in their
order; and a job waits exactly if the one that was put on hold last has neither run nor been dropped.
So it is on every runtime that keeps to the laws of tasks and has none asleep at the start. -/
theorem fired_run [DecidableEq τ] {r : TaskRuntime α σ τ} {sleepers : σ → List (Sleeper α τ)}
    (hr : r.Lawful sleepers) {start : σ} (hstart : sleepers start = []) {delay : Nat}
    (hdelay : 1 ≤ delay) (steps : List (DebounceStep α)) :
    let d := Debouncer.run ⟨delay, none⟩ steps
    let h := r.run ⟨delay, none, start⟩ steps
    d.2 = dueJobs delay steps ∧ (d.1.isPending = true ↔ IsWaiting delay steps) ∧
      h.2 = d.2 ∧ r.isPending h.1 = d.1.isPending := by
  intro d h
  have hc : r.Carries sleepers ⟨delay, none, start⟩ (Debouncer.mk delay none) := .idle hstart nofun
  obtain ⟨hrun, hjobs⟩ := hc.run hr steps
  refine ⟨Debouncer.snd_run hdelay Debouncer.hasTime_none steps, ?_, hjobs, hrun.isPending_eq hr⟩
  refine (Debouncer.isPending_run hdelay Debouncer.hasTime_none steps).trans (or_iff_right ?_)
  rintro ⟨_, ⟨⟩, -⟩

/-- A runtime with a clock: the number of tasks so far and the sleeping ones. -/
def clockRuntime : TaskRuntime α (Nat × List (Sleeper α Nat)) Nat where
  spawn s delay job := ((s.1 + 1, s.2 ++ [⟨s.1, job, delay⟩]), s.1)
  abort s t := (s.1, s.2.filter fun x => x.task ≠ t)
  advance s ms :=
    ((s.1, (s.2.filter fun x => ms < x.left).map fun x => { x with left := x.left - ms }),
      ((s.2.filter fun x => x.left ≤ ms).mergeSort fun x y => x.left ≤ y.left).map (·.job))
  isFinished s t := s.2.all fun x => x.task ≠ t

/-- A runtime that keeps its sleeping tasks with the time that is left is lawful. -/
theorem lawful_clockRuntime : (clockRuntime (α := α)).Lawful Prod.snd where
  spawn _ _ _ := rfl
  abort _ _ := rfl
  jobs s ms := (List.mergeSort_perm _ _).map _
  advance _ _ := rfl
  not_isFinished s x hx := by
    refine List.all_eq_false.2 ⟨x, hx, ?_⟩
    simp
  isFinished_of_jobs s ms x _ hrest := by
    refine List.all_eq_true.2 fun y hy => ?_
    simpa using hrest y hy
  isFinished_advance s ms t hfinished := by
    refine List.all_eq_true.2 fun y hy => ?_
    obtain ⟨x, hx, rfl⟩ := List.mem_map.1 hy
    exact List.all_eq_true.1 hfinished x (List.mem_filter.1 hx).1

/-- A job that is replaced in time, one that runs exactly when its time is over, one that is dropped
too late, one that is dropped in time, and one that still waits. -/
theorem fired_run_on_clock :
    let steps : List (DebounceStep Nat) :=
      [.schedule 1, .advance 149, .schedule 2, .advance 100, .advance 50, .cancel, .schedule 3,
        .advance 10, .cancel, .advance 150, .schedule 4, .advance 149]
    let d := Debouncer.run ⟨150, none⟩ steps
    let h := clockRuntime.run ⟨150, none, (0, [])⟩ steps
    1 ≤ 150 ∧ d.2 = [2] ∧ d.1.isPending = true ∧ h.2 = [2] ∧ clockRuntime.isPending h.1 = true := by
  intro steps d h
  have hidle : (((0, []) : Nat × List (Sleeper Nat Nat))).2 = [] := rfl
  obtain ⟨hfired, hpending, hjobs, hwaits⟩ :=
    fired_run lawful_clockRuntime hidle (show 1 ≤ 150 by decide) steps
  have hdue : dueJobs 150 steps = [2] := by decide
  have hlast : IsWaiting 150 steps :=
    ⟨steps.take 10, 4, [.advance 149], rfl, by simp [Outlasts, quietTime]⟩
  exact ⟨by decide, hfired.trans hdue, hpending.2 hlast, hjobs.trans (hfired.trans hdue),
    hwaits.trans (hpending.2 hlast)⟩

end EquityBoard
