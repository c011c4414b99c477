import EquityBoard.Environment
import EquityBoard.Json.Basic
import EquityBoard.Text.Blank

/-!
# Log events

Something that happened, with a level, the domain it happened in, a name and fields. Which events are
written is a matter of the least level and of the domains that the environment names.
-/

namespace EquityBoard.Log

/-! ## Levels and domains -/

/-- How grave an event is. -/
inductive Level where
  | trace
  | debug
  | info
  | warn
  | error
  | fatal
deriving DecidableEq, Repr

namespace Level

/-- The place of a level in the order of the levels. -/
def rank : Level → Nat
  | .trace => 0
  | .debug => 1
  | .info => 2
  | .warn => 3
  | .error => 4
  | .fatal => 5

/-- The name of a level. -/
def name : Level → String
  | .trace => "trace"
  | .debug => "debug"
  | .info => "info"
  | .warn => "warn"
  | .error => "error"
  | .fatal => "fatal"

/-- The level that a text names in either case, white space around it aside. -/
def parse? (s : String) : Option Level :=
  match Text.lower (Text.trim s) with
  | "trace" => some .trace
  | "debug" => some .debug
  | "info" => some .info
  | "warn" => some .warn
  | "error" => some .error
  | "fatal" => some .fatal
  | _ => none

end Level

/-- The part of the board that an event belongs to. -/
inductive Domain where
  /-- Polls and repeated attempts. -/
  | feed
  /-- Merges into the store. -/
  | series
  /-- Changes of what is shown. -/
  | view
  /-- Polls of the conversations. -/
  | chat
  /-- Requests for renditions. -/
  | translate
  /-- Start and end. -/
  | system
deriving DecidableEq, Repr

/-- The name of a domain. -/
def Domain.name : Domain → String
  | .feed => "feed"
  | .series => "series"
  | .view => "view"
  | .chat => "chat"
  | .translate => "translate"
  | .system => "system"

/-! ## Events -/

/-- Something that happened. -/
structure Event where
  level : Level
  domain : Domain
  name : String
  fields : KeyMap Json

/-- The event of a list of fields. -/
def event (level : Level) (domain : Domain) (name : String) (fields : List (String × Json)) :
    Event :=
  ⟨level, domain, name, .ofList fields⟩

/-! ## Filter -/

/-- Which events are written. -/
structure Filter where
  least : Level
  /-- The names of the written domains; nothing stands for all. -/
  domains? : Option (List String)

namespace Filter

/-- The filter of an environment: from the level `info` on and for all domains, unless it says
otherwise. -/
def ofEnvironment (env : Environment) : Filter where
  least := ((env.get? "LOG_LEVEL").bind Level.parse?).getD .info
  domains? :=
    match env.get? "LOG_DOMAINS" with
    | none => none
    | some s =>
      if s = "all" then none
      else some ((Text.cut (· == ',') s.toList).map fun d => String.ofList (Text.trimChars d))

/-- Whether the events of a domain are written. -/
def hasDomain (f : Filter) (domain : Domain) : Bool :=
  match f.domains? with
  | none => true
  | some names => names.contains domain.name

/-- Whether an event is written. -/
def accepts (f : Filter) (e : Event) : Bool :=
  f.least.rank ≤ e.level.rank && f.hasDomain e.domain

end Filter

end EquityBoard.Log
