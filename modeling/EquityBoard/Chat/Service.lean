import EquityBoard.Chat.Completion
import EquityBoard.Decimal.Numeral
import EquityBoard.Http
import EquityBoard.Json.Printer
import EquityBoard.Url.Address

/-!
# The chat service

Renditions come from a chat-completion service, which is reached below a base address with an access
token. A request is sent once; a failure is reported and not repeated.
-/

namespace EquityBoard.Chat

/-- How the chat service is reached. -/
structure ChatService where
  endpoint : Url.Address
  token : String
  model : String

/-- Why there is no rendition. -/
inductive ServiceFailure where
  | noAnswer
  | status (code : Nat)
  | undecodable
  | noChoices
deriving DecidableEq, Repr

/-- The text that explains a failure of the chat service. -/
def ServiceFailure.message : ServiceFailure → String
  | .noAnswer => "<network error>"
  | .status code => "chat completion http status " ++ Decimal.natText code
  | .undecodable => "<decode error>"
  | .noChoices => "chat completion returned no choices"

/-- The text in the reply to a request. -/
def renditionOfReply : Http.Reply → Except ServiceFailure String
  | .nothing => .error .noAnswer
  | .answer status body =>
    if Http.isSuccess status then
      match CompletionResponse.read? body with
      | none => .error .undecodable
      | some response =>
        match response.firstText? with
        | some text => .ok text
        | none => .error .noChoices
    else .error (.status status)

namespace ChatService

/-- The service below a base address. -/
def new (base token model : String) : Except Url.UrlError ChatService := do
  let address ← Url.parse base
  let endpoint ← address.child ["chat".toList, "completions".toList]
  return ⟨endpoint, token, model⟩

/-- The request for the rendition of a text. -/
def request (service : ChatService) (text : String) : Http.Request where
  method := .post
  url := service.endpoint.text
  authorization? := some ("Bearer " ++ service.token)
  body? := some (renditionRequest service.model text).toJson

/-- Asks for the rendition of a text. -/
def translate {σ : Type} (service : ChatService) (network : Http.Network σ) (text : String) :
    StateM σ (Except ServiceFailure String) := do
  return renditionOfReply (← network.send (service.request text))

end ChatService

end EquityBoard.Chat
