import EquityBoard.Chance
import EquityBoard.Json.Basic

/-!
# Requests over the network

The board sees the network as something that takes a request and gives a reply, or none. What stands
behind it has a state of its own.
-/

namespace EquityBoard.Http

/-- What is asked of a server. -/
inductive Method where
  | get
  | post
deriving DecidableEq, Repr

/-- The name of a method. -/
def Method.name : Method → String
  | .get => "GET"
  | .post => "POST"

/-- A request. -/
structure Request where
  method : Method
  url : String
  authorization? : Option String := none
  body? : Option Json := none

/-- What comes back. -/
inductive Reply where
  /-- The connection was not made, or closed without an answer. -/
  | nothing
  | answer (status : Nat) (body : String)

/-- Whether a status stands for success. -/
def isSuccess (status : Nat) : Bool := 200 ≤ status && status < 300

/-- The network: it answers requests, and decides by chance where the board asks for chance. -/
structure Network (σ : Type) where
  send : Request → StateM σ Reply
  draws : Draws := {}

end EquityBoard.Http
