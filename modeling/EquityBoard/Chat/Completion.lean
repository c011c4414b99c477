import EquityBoard.Json.Reader

/-!
# Chat completions

The documents that are exchanged with a chat-completion service: a request with messages, and a
response with choices. A response is decoded from its written form: fields that are not known are
skipped whatever they hold, a known one may occur once, and a record may also come as the list of its
fields.
-/

namespace EquityBoard.Chat

open Json

/-! ## Requests -/

/-- Who speaks. -/
inductive Role where
  | system
  | user
  | assistant
deriving DecidableEq, Repr

/-- The name of a role. -/
def Role.name : Role → String
  | .system => "system"
  | .user => "user"
  | .assistant => "assistant"

/-- The role of a name. -/
def Role.ofName? : String → Option Role
  | "system" => some .system
  | "user" => some .user
  | "assistant" => some .assistant
  | _ => none

/-- One message. -/
structure Message where
  role : Role
  content : String
deriving DecidableEq, Repr

/-- What is asked of the service. -/
structure CompletionRequest where
  model : String
  messages : List Message

/-- The document of a message. -/
def Message.toJson (m : Message) : Json :=
  .object [("role", .string m.role.name), ("content", .string m.content)]

/-- The document of a request. -/
def CompletionRequest.toJson (r : CompletionRequest) : Json :=
  .object [("model", .string r.model), ("messages", .ofList Message.toJson r.messages)]

/-- The instruction that goes ahead of every text: a plain Chinese rendering by a trader. -/
def instruction : String :=
  "你是专业金融交易员和翻译官，能专业翻译用户输入的内容为中文，并直接输出浅显易懂的翻译内容"

/-- The request for the rendering of a text. -/
def renditionRequest (model text : String) : CompletionRequest :=
  ⟨model, [⟨.system, instruction⟩, ⟨.user, text⟩]⟩

/-! ## Responses -/

/-- One offered answer. -/
structure Choice where
  index : Nat
  message : Message
  finishReason? : Option String

/-- What was counted. -/
structure Usage where
  prompt : Nat
  completion : Nat
  total : Nat

/-- What the service answers. -/
structure CompletionResponse where
  id : String
  model : String
  choices : List Choice
  usage? : Option Usage

/-- The text of the first choice. -/
def CompletionResponse.firstText? (r : CompletionResponse) : Option String :=
  r.choices.head?.map fun c => c.message.content

/-! ## Decoding -/

namespace Decode

/-- The text of a string. -/
def text? : Written → Option String
  | .string body => (Quoted.text? body).map String.ofList
  | _ => none

/-- A natural number below a bound. -/
def natural? (bound : Nat) : Written → Option Nat
  | .number n =>
    match n.value? with
    | some (.whole z _) => if 0 ≤ z ∧ z < bound then some z.toNat else none
    | _ => none
  | _ => none

/-- A value or null. -/
def nullable? {α : Type} (decode : Written → Option α) : Written → Option (Option α)
  | .null => some none
  | w => (decode w).map some

/-- All items of an array. -/
def list? {α : Type} (decode : Written → Option α) : Written → Option (List α)
  | .array items => items.mapM decode
  | _ => none

/-- The known members of an object, each at most once. -/
def known? (names : List String) : List (List Quoted.Piece × Written) → Option (KeyMap Written)
  | [] => some .empty
  | (body, value) :: members =>
    match Quoted.text? body, known? names members with
    | some cs, some fields =>
      let name := String.ofList cs
      if name ∈ names then
        if fields.contains name then none else some (fields.insert name value)
      else some fields
    | _, _ => none

/-- The fields of a record: an object with the fields that are there, or the list of all of them. -/
def record? (names : List String) : Written → Option (KeyMap Written)
  | .object members => known? names members
  | .array items =>
    if items.length = names.length then some (KeyMap.ofList (names.zip items)) else none
  | _ => none

/-- A field that must be there. -/
def required? {α : Type} (fields : KeyMap Written) (name : String) (decode : Written → Option α) :
    Option α :=
  (fields.get? name).bind decode

/-- A field with a value for its absence. -/
def optional? {α : Type} (fields : KeyMap Written) (name : String) (absent : α)
    (decode : Written → Option α) : Option α :=
  match fields.get? name with
  | none => some absent
  | some w => decode w

/-- A role: its name, or an object whose only field has its name and holds null. -/
def role? : Written → Option Role
  | .object [(body, .null)] => (text? (.string body)).bind Role.ofName?
  | w => (text? w).bind Role.ofName?

/-- A message. -/
def message? (w : Written) : Option Message := do
  let fields ← record? ["role", "content"] w
  let role ← required? fields "role" role?
  let content ← required? fields "content" text?
  return ⟨role, content⟩

/-- A choice. -/
def choice? (w : Written) : Option Choice := do
  let fields ← record? ["index", "message", "finish_reason"] w
  let index ← optional? fields "index" 0 (natural? 0x100000000)
  let message ← required? fields "message" message?
  let finishReason? ← optional? fields "finish_reason" none (nullable? text?)
  return ⟨index, message, finishReason?⟩

/-- The counts of a response. -/
def usage? (w : Written) : Option Usage := do
  let fields ← record? ["prompt_tokens", "completion_tokens", "total_tokens"] w
  let prompt ← required? fields "prompt_tokens" (natural? 0x10000000000000000)
  let completion ← required? fields "completion_tokens" (natural? 0x10000000000000000)
  let total ← required? fields "total_tokens" (natural? 0x10000000000000000)
  return ⟨prompt, completion, total⟩

/-- A response. -/
def response? (w : Written) : Option CompletionResponse := do
  let fields ← record? ["id", "model", "choices", "usage"] w
  let id ← optional? fields "id" "" text?
  let model ← optional? fields "model" "" text?
  let choices ← optional? fields "choices" [] (list? choice?)
  let usage? ← optional? fields "usage" none (nullable? usage?)
  return ⟨id, model, choices, usage?⟩

end Decode

/-- The response that a text writes. -/
def CompletionResponse.read? (s : String) : Option CompletionResponse :=
  (Written.read? s.toList).bind Decode.response?

end EquityBoard.Chat
