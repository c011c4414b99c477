import EquityBoard.Chance
import EquityBoard.Decimal.Checked
import EquityBoard.Decimal.Dyadic
import EquityBoard.Feed.Batch
import EquityBoard.Log.BoardEvents

/-!
# Repeated attempts

A request that fails for a passing reason is repeated a few times, after delays that double up to a
limit and are spread by a random share. Other failures end the attempts at once.
-/

namespace EquityBoard.Feed

open Decimal

/-! ## Failures -/

/-- Why a request failed. -/
inductive Failure where
  /-- An answer with a status that is no success. -/
  | status (code : Nat) (url : String)
  /-- No answer. -/
  | noAnswer
  /-- The address is none that a request can be sent to. -/
  | badAddress
  /-- A success whose body is not the expected document. -/
  | undecodable
  /-- A document that is no batch. -/
  | badBatch (error : BatchError)
  | other (message : String)

namespace Failure

/-- The text that explains a failure. -/
def message : Failure → String
  | .status code url => "http status " ++ natText code ++ " from " ++ url
  | .noAnswer => "<network error>"
  | .badAddress => "<network error>"
  | .undecodable => "<decode error>"
  | .badBatch error => error.message
  | .other message => message

/-- Whether a status stands for a passing failure. -/
def isPassingStatus (code : Nat) : Bool := code ∈ [408, 429, 500, 502, 503, 504]

/-- Whether another attempt may succeed. -/
def isPassing : Failure → Bool
  | .status code _ => isPassingStatus code
  | .noAnswer => true
  | _ => false

end Failure

/-! ## Delays -/

/-- How often and after which delays attempts are repeated. -/
structure RetryPolicy where
  maxRetries : Nat := 2
  baseDelay : Nat := 200
  maxDelay : Nat := 2000
  /-- The greatest share of a delay by which it is spread. -/
  jitter : Float := 0.3

/-- A power of two as a double; from the exponent 1024 on it is infinite. -/
def powerOfTwo (exponent : Nat) : Float :=
  if exponent < 1024 then Float.ofNat (Nat.pow 2 exponent) else Float.ofBits 0x7FF0000000000000

/-- By how much the delay after an attempt is multiplied. The number of the attempt has 32 bits, and
is an exponent of 32 bits with a sign: from `2 ^ 31` on it is negative. -/
def growth (attempt : Nat) : Float :=
  let exponent := (attempt : Int).bmod 0x100000000
  if exponent < 0 then 1 / powerOfTwo exponent.natAbs else powerOfTwo exponent.natAbs

/-- The unsigned 64-bit integer of a double without its fraction, held at the bounds. -/
def wholeDelay (x : Float) : Nat :=
  if x.isNaN ∨ x ≤ 0 then 0
  else if x.isInf then 0xFFFFFFFFFFFFFFFF
  else min 0xFFFFFFFFFFFFFFFF (Dyadic.ofFloat x).truncated.toNat

/-- The delay in milliseconds after an attempt, counted from zero. It is spread by a part that is drawn
by chance. -/
def RetryPolicy.delay (p : RetryPolicy) (draws : Draws) (attempt : Nat) : Nat :=
  let grown := Float.ofNat p.baseDelay * growth attempt
  let limit := Float.ofNat p.maxDelay
  let clamped := if grown < limit then grown else limit
  let spread := clamped * p.jitter
  wholeDelay (clamped + (if 0 < spread then draws.draw attempt spread else 0))

/-! ## Reports -/

/-- A failed attempt that another one follows. -/
structure RetryReport where
  /-- The number of the attempt, counted from one. -/
  attempt : Nat
  maxAttempts : Nat
  delay : Nat
  failure : Failure

/-- The event of a failed attempt. -/
def RetryReport.event (operation : String) (r : RetryReport) : Log.Event :=
  Log.retry operation r.attempt r.maxAttempts r.delay r.failure.message

/-- The report of a failed attempt, counted from zero. Its two numbers are sums of 32 bits. -/
def RetryPolicy.report (p : RetryPolicy) (draws : Draws) (attempt : Nat) (failure : Failure) :
    Except Overflow RetryReport := do
  let number ← Width.unsigned32.add attempt 1
  let total ← Width.unsigned32.add p.maxRetries 1
  return ⟨number.toNat, total.toNat, p.delay draws attempt, failure⟩

/-! ## Attempts -/

/-- What attempts are made with: an operation to call, someone to report to, and a way to let time
pass. -/
structure Surroundings (σ α : Type) where
  call : StateM σ (Except Failure α)
  report : RetryReport → StateM σ Unit := fun _ => return
  sleep : (delay : Nat) → StateM σ Unit := fun _ => return

/-- Calls an operation until it succeeds, fails for good, or has been repeated `left` times; `attempt`
attempts were made before. Gives the last result and the reports of the attempts before. -/
def RetryPolicy.attempts {σ α : Type} (p : RetryPolicy) (draws : Draws) (s : Surroundings σ α) :
    (left attempt : Nat) → Work σ (Except Failure α × List RetryReport)
  | left, attempt => do
    match ← s.call with
    | .ok a => return (.ok a, [])
    | .error e =>
      if e.isPassing then
        match left with
        | 0 => return (.error e, [])
        | left + 1 =>
          let report ← p.report draws attempt e
          s.report report
          s.sleep report.delay
          let (result, reports) ← p.attempts draws s left (attempt + 1)
          return (result, report :: reports)
      else return (.error e, [])

/-- Calls an operation with repeated attempts. -/
def RetryPolicy.run {σ α : Type} (p : RetryPolicy) (draws : Draws)
    (operation : StateM σ (Except Failure α)) : Work σ (Except Failure α × List RetryReport) :=
  p.attempts draws { call := operation } p.maxRetries 0

/-- The time that the delays take together. -/
def elapsed (reports : List RetryReport) : Nat := reports.foldl (fun total r => total + r.delay) 0

end EquityBoard.Feed
