import EquityBoard.Settings

/-!
# Commands

What an operator types while the board runs: a verb in either case, and for most verbs one argument.
-/

namespace EquityBoard

/-- What an operator asks for. -/
inductive Command where
  | range (range : Range)
  | mode (mode : Mode)
  | toggle (model : String)
  | resize (width : Nat)
  | filter (filter : Chat.ModelFilter)
  /-- Switch a card between its text and its rendition. -/
  | translate (cardKey : String)
  /-- Print the account totals. -/
  | totals
  /-- Print the frame. -/
  | frame
  | quit
deriving DecidableEq, Repr

/-- Why a line is no command. -/
inductive CommandError where
  | empty
  | unknownRange (text : String)
  | unknownMode (text : String)
  | badWidth (text : String)
  /-- The verb is unknown, or lacks its argument, or has one that it does not take. -/
  | unrecognized (verb : String)
  | tooManyArguments (line : String)
deriving DecidableEq, Repr

/-- The text that explains a command error. -/
def CommandError.message : CommandError → String
  | .empty => "empty command"
  | .unknownRange text => "unknown range " ++ text
  | .unknownMode text => "unknown mode " ++ text
  | .badWidth text => "bad width " ++ text
  | .unrecognized verb => "unrecognized command: " ++ verb
  | .tooManyArguments line => "too many arguments: " ++ line

namespace Command

/-- The range command of an argument: the word `window` in either case, or a range. -/
def ofRange (settings : Settings) (text : String) : Except CommandError Command :=
  if Text.lower text = "window" then .ok (.range settings.window)
  else match Range.parse? text with
    | some r => .ok (.range r)
    | none => .error (.unknownRange text)

/-- The mode command of an argument. -/
def ofMode (text : String) : Except CommandError Command :=
  match Mode.parse? text with
  | some m => .ok (.mode m)
  | none => .error (.unknownMode text)

/-- The resize command of an argument. -/
def ofWidth (text : String) : Except CommandError Command :=
  match Decimal.natural? .unsigned32 text with
  | some width => .ok (.resize width)
  | none => .error (.badWidth text)

/-- The command of a lower-case verb and the word behind it. -/
def ofVerb (settings : Settings) (verb : String) (argument? : Option String) :
    Except CommandError Command :=
  match verb, argument? with
  | "range", some text => ofRange settings text
  | "mode", some text => ofMode text
  | "toggle", some text => .ok (.toggle text)
  | "resize", some text => ofWidth text
  | "filter", some text => .ok (.filter (.parse text))
  | "translate", some text => .ok (.translate text)
  | "original", some text => .ok (.translate text)
  | "totals", none => .ok .totals
  | "frame", none => .ok .frame
  | "quit", none => .ok .quit
  | "exit", none => .ok .quit
  | verb, _ => .error (.unrecognized verb)

/-- The command of the words of a line. A fault of the first two words comes before a third word. -/
def ofWords (settings : Settings) (line : String) : List String → Except CommandError Command
  | [] => .error .empty
  | verb :: rest => do
    let command ← ofVerb settings (Text.lower verb) rest.head?
    if rest.length ≤ 1 then return command else throw (.tooManyArguments (Text.trim line))

/-- The command of a line. -/
def parse (settings : Settings) (line : String) : Except CommandError Command :=
  ofWords settings line ((Text.words line.toList).map String.ofList)

end Command

end EquityBoard
