import EquityBoard.Log.Event

/-!
# Log records

The record of an event is what is written of it. Secrets are replaced, a few fields stand at the top,
and all others stay together, so that no field can take the place of a part of the record.
-/

namespace EquityBoard.Log

/-! ## Fields -/

/-- The fields whose values are secret. -/
def secretFields : List String := ["authorization", "Authorization", "api_key", "token", "bearer"]

/-- What is written in place of a secret. -/
def redacted : Json := .string "[REDACTED]"

/-- The fields with their secrets replaced. -/
def redact (fields : KeyMap Json) : KeyMap Json :=
  fields.filterMap fun name value => some (if name ∈ secretFields then redacted else value)

/-- The fields that stand at the top of a record. -/
def topFields : List String := ["model_id", "card_key", "endpoint"]

/-- Whether a field stands outside the data of a record. -/
def isOutside (name : String) : Bool := name ∈ topFields || name == "msg"

/-! ## Records -/

/-- What is written of an event. -/
structure Record where
  level : Level
  component : String
  event : String
  message : Json
  /-- The fields at the top. -/
  top : KeyMap Json
  /-- All other fields. -/
  data : KeyMap Json

/-- The file that gets a record. -/
inductive Sink where
  | events
  | trace
deriving DecidableEq, Repr

/-- The record of fields under a level, a component and a name. -/
def Record.ofFields (level : Level) (component event : String) (fields : KeyMap Json) : Record :=
  let fields := redact fields
  { level
    component
    event
    message := (fields.get? "msg").getD (.string "")
    top := fields.filterMap fun name value => if name ∈ topFields then some value else none
    data := fields.filterMap fun name value => if isOutside name then none else some value }

/-- The record of an event. -/
def Event.record (e : Event) : Record := .ofFields e.level e.domain.name e.name e.fields

/-- When, in which run and at which place a record was written. -/
structure Stamp where
  time : String
  run : String
  seq : Nat

namespace Record

/-- The file that gets the record: the two lowest levels go into one of their own. -/
def sink (r : Record) : Sink :=
  match r.level with
  | .trace | .debug => .trace
  | _ => .events

/-- The document of a record, its fields in ascending order. -/
def toJson (r : Record) (stamp : Stamp) : Json :=
  let header : KeyMap Json := .ofList [
    ("ts", .string stamp.time),
    ("run_id", .string stamp.run),
    ("seq", .ofNat stamp.seq),
    ("lvl", .string (Text.upper r.level.name)),
    ("component", .string r.component),
    ("event", .string r.event),
    ("msg", r.message)]
  .ofMap ((header.overlay r.top).insert "data" (.ofMap r.data))

end Record

end EquityBoard.Log
