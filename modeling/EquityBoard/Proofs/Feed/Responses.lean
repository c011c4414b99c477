import EquityBoard.Board
import EquityBoard.Feed.Recording
import EquityBoard.Proofs.Chart.PanelRuns
import EquityBoard.Proofs.Feed.RepeatedAttempts

/-!
# Responses of the series feed

A recording is made of responses: its lines without blank ones and comments. What it keeps are the
batches among them (`batches_ofText`). A board that polls a data service which answers with these
responses in turn takes the batches one after another, too, but a response that is no batch is a
failed poll to its panel (`run_pollSeries`, `run_pollSeriesTimes`).
-/

namespace EquityBoard

open Decimal (Work)

/-! ## Recorded responses -/

namespace Feed.Recording

/-- The response that a line records: the line without white space at its ends, unless it is blank or
a comment. -/
def response? (line : List Char) : Option String :=
  let trimmed := Text.trimChars line
  if trimmed.isEmpty || trimmed.head? == some '#' then none else some (String.ofList trimmed)

/-- The responses that the lines of a text record. -/
def responses (text : String) : List String := (Text.lines text.toList).filterMap response?

theorem ofChars_eq (line : List Char) :
    RecordedLine.ofChars line =
      match response? line with
      | none => .skipped
      | some body =>
        match Batch.read? body with
        | some b => .batch b
        | none => .bad := by
  simp only [RecordedLine.ofChars, response?]
  split
  · rfl
  · rfl

/-- A recording keeps the batches among its responses. -/
theorem batches_ofText (text : String) :
    (ofText text).batches = (responses text).filterMap Batch.read? := by
  unfold ofText ofLines responses
  simp only [List.filterMap_map, List.filterMap_filterMap]
  congr 1
  funext line
  rw [Function.comp_apply, ofChars_eq]
  cases response? line with
  | none => rfl
  | some body =>
    simp only [Option.bind_some]
    cases Batch.read? body <;> rfl

/-- The bytes of a text are the recording of the text. -/
theorem ofBytes_toUTF8 (text : String) : ofBytes text.toUTF8.data.toList = .ok (ofText text) := by
  have hread : String.fromUTF8? text.toUTF8 = some text := dif_pos text.isValidUTF8
  unfold ofBytes
  rw [Array.toArray_toList, hread]

end Feed.Recording

/-! ## Responses to a panel -/

namespace Chart.Panel

open Feed (Batch)

/-- The panel after a response: a batch is taken, anything else is a failed poll. -/
def takeResponse (p : Panel) (body : String) : Panel :=
  match Json.read? body with
  | none => p.takeError
  | some j =>
    match Batch.ofJson j with
    | .ok b => (p.takeBatch b.points b.declared).1
    | .error _ => p.takeError

/-- The panel after some responses. -/
def takeResponses (p : Panel) (bodies : List String) : Panel := bodies.foldl takeResponse p

/-- What a batch is to a panel. -/
def Op.ofBatch (b : Batch) : Op := .batch b.points b.declared

/-- What a response is to a panel. -/
def Op.ofResponse (body : String) : Op :=
  match Batch.read? body with
  | some b => .ofBatch b
  | none => .error

theorem takeResponse_eq_apply (p : Panel) (body : String) :
    p.takeResponse body = p.apply (.ofResponse body) := by
  unfold takeResponse Op.ofResponse Batch.read?
  cases Json.read? body with
  | none => rfl
  | some j =>
    simp only
    cases Batch.ofJson j <;> rfl

theorem takeResponses_eq_run (p : Panel) (bodies : List String) :
    p.takeResponses bodies = p.run (bodies.map Op.ofResponse) := by
  unfold takeResponses run
  rw [List.foldl_map]
  congr 1
  funext p body
  exact takeResponse_eq_apply p body

end Chart.Panel

/-! ## Responses over the network -/

/-- A network that answers the requests with some bodies in turn. -/
def Http.inTurn : Http.Network (List String) where
  send _ := fun
    | [] => (.nothing, [])
    | body :: rest => (.answer 200 body, rest)

namespace Feed

namespace DataService

/-- The batch of a response, or why there is none. -/
def batchOf (body : String) : Except Failure Batch :=
  match Json.read? body with
  | none => .error .undecodable
  | some j => (Batch.ofJson j).mapError .badBatch

theorem run_attempt {url : String} {address : Url.Address} (h : Url.parse url = .ok address)
    (body : String) (rest : List String) :
    (attempt Http.inTurn url).run (body :: rest) =
      (match Json.read? body with
        | some j => .ok j
        | none => .error .undecodable, rest) := by
  unfold attempt
  rw [h]
  rfl

/-- Every response is asked for once, also one that is no document. -/
theorem run_attempts (policy : RetryPolicy) {url : String} {address : Url.Address}
    (h : Url.parse url = .ok address) (body : String) (rest : List String) :
    (policy.run Http.inTurn.draws (attempt Http.inTurn url)).run.run (body :: rest) =
      (.ok (match Json.read? body with
        | some j => .ok j
        | none => .error .undecodable, []), rest) := by
  have hattempt := run_attempt h body rest
  have hfinal : IsFinal ((attempt Http.inTurn url).run (body :: rest)).1 := by
    rw [hattempt]
    cases Json.read? body with
    | none => exact True.intro
    | some j => exact True.intro
  rw [policy.run_of_isFinal Http.inTurn.draws (attempt Http.inTurn url) (body :: rest) hfinal,
    hattempt]

theorem run_fetchSeries (service : DataService) {address : Url.Address}
    (h : Url.parse (service.settings.endpoint Settings.seriesPath) = .ok address)
    (body : String) (rest : List String) :
    (service.fetchSeries Http.inTurn).run.run (body :: rest) =
      (.ok ⟨batchOf body, Settings.seriesPath, []⟩, rest) := by
  have hfetch : (service.fetch Http.inTurn Settings.seriesPath).run.run (body :: rest) =
      (.ok ⟨match Json.read? body with
        | some j => .ok j
        | none => .error .undecodable, Settings.seriesPath, []⟩, rest) :=
    Work.run_bind_of_ok (run_attempts service.policy h body rest) _
  refine (Work.run_bind_of_ok hfetch _).trans ?_
  unfold batchOf
  cases Json.read? body <;> rfl

end DataService

end Feed

namespace Board

/-- A board that polls takes the response to its panel. -/
theorem run_pollSeries (b : Board) {address : Url.Address}
    (h : Url.parse (b.settings.endpoint Settings.seriesPath) = .ok address)
    (body : String) (rest : List String) :
    ∃ outputs, (b.pollSeries Http.inTurn).run.run (body :: rest) =
      (.ok ({ b with panel := b.panel.takeResponse body }, outputs), rest) := by
  have hfetch := b.service.run_fetchSeries h body rest
  unfold Feed.DataService.batchOf at hfetch
  unfold pollSeries Chart.Panel.takeResponse
  rw [Work.run_bind_of_ok hfetch]
  cases Json.read? body with
  | none => exact ⟨_, rfl⟩
  | some j =>
    simp only
    cases Feed.Batch.ofJson j with
    | ok batch => exact ⟨_, rfl⟩
    | error failure => exact ⟨_, rfl⟩

variable {σ : Type}

/-- Polls the account values several times. -/
def pollSeriesTimes (b : Board) (network : Http.Network σ) : Nat → Work σ Board
  | 0 => return b
  | n + 1 => do
    let (b, _) ← b.pollSeries network
    b.pollSeriesTimes network n

/-- A board that polls as often as there are responses takes them all to its panel. -/
theorem run_pollSeriesTimes (b : Board) {address : Url.Address}
    (h : Url.parse (b.settings.endpoint Settings.seriesPath) = .ok address)
    (bodies : List String) :
    (b.pollSeriesTimes Http.inTurn bodies.length).run.run bodies =
      (.ok { b with panel := b.panel.takeResponses bodies }, []) := by
  induction bodies generalizing b with
  | nil => rfl
  | cons body rest ih =>
    obtain ⟨outputs, hpoll⟩ := b.run_pollSeries h body rest
    rw [List.length_cons, pollSeriesTimes, Work.run_bind_of_ok hpoll]
    exact ih { b with panel := b.panel.takeResponse body } h

end Board

end EquityBoard
