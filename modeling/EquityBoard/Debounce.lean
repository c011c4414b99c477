/-!
# Debouncing

Of jobs that follow each other within a delay only the last one runs. A `Debouncer` holds at most one
job, with the time that is left until it runs; a new job takes the place of the one that waits.
-/

namespace EquityBoard

/-- At most one waiting job and the milliseconds until it is due. -/
structure Debouncer (α : Type) where
  delay : Nat
  waiting? : Option (α × Nat) := none

namespace Debouncer

variable {α : Type}

/-- Puts a job on hold for the delay, instead of the one that waits. -/
def schedule (d : Debouncer α) (job : α) : Debouncer α := { d with waiting? := some (job, d.delay) }

/-- Drops the job that waits. -/
def cancel (d : Debouncer α) : Debouncer α := { d with waiting? := none }

/-- Lets time pass; the job runs if its delay is over then. -/
def advance (d : Debouncer α) (ms : Nat) : Debouncer α × Option α :=
  match d.waiting? with
  | none => (d, none)
  | some (job, left) =>
    if left ≤ ms then ({ d with waiting? := none }, some job)
    else ({ d with waiting? := some (job, left - ms) }, none)

/-- Whether a job waits. -/
def isPending (d : Debouncer α) : Bool := d.waiting?.isSome

end Debouncer

end EquityBoard
