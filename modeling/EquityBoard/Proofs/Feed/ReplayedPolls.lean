import EquityBoard.Proofs.Chart.FailedPolls
import EquityBoard.Proofs.Feed.Responses
import EquityBoard.Replay
import Mathlib.Data.List.Basic

/-!
# Replayed polls

A replay takes the batches of a recording, where the live panel takes the responses and sees the
failed polls between them. The events of the replay are those of the live panel without failures
(`dropsErrors_responses`), so with a batch among the responses both draw one chart
(`body_frame_takeBatches`); and when the latest response is a batch the banner is the same, too.
Unless it is given, the time of a replay is the newest time among the batches
(`cursor?_takeBatches`). Main statement: `frame_recorded`.
-/

namespace EquityBoard

open Chart (Panel PanelSettings)
open Feed (Batch Recording)

attribute [ext] Chart.Frame

namespace Chart.Panel

/-! ## Batches among the responses -/

/-- Without its failed polls, what the responses are to a panel is what their batches are to it. -/
theorem dropsErrors_responses (bodies : List String) :
    DropsErrors (bodies.map Op.ofResponse) ((bodies.filterMap Batch.read?).map Op.ofBatch) := by
  induction bodies with
  | nil => exact .nil
  | cons body bodies ih =>
    rw [List.map_cons, List.filterMap_cons]
    unfold Op.ofResponse
    cases Batch.read? body with
    | some b => exact .keep (.ofBatch b) ih
    | none => exact .drop ih

/-- The latest response decides how the feed stands. -/
theorem status_takeResponses_concat (p : Panel) (earlier : List String) (latest : String) :
    (p.takeResponses (earlier ++ [latest])).status =
      if (Batch.read? latest).isSome then .live else .failed := by
  rw [takeResponses_eq_run, List.map_append, List.map_singleton, run_concat]
  unfold Op.ofResponse
  cases Batch.read? latest <;> rfl

/-- A panel waits for nothing after some responses. -/
theorem isAt_takeResponses {bodies : List String} (h : bodies ≠ []) (p : Panel) :
    (p.takeResponses bodies).IsAt true := by
  obtain ⟨earlier, latest, rfl⟩ := (List.eq_nil_or_concat' bodies).resolve_left h
  show (p.takeResponses (earlier ++ [latest])).status ≠ .waiting
  rw [status_takeResponses_concat]
  split <;> exact nofun

theorem status_takeResponses_of_batch {bodies : List String}
    (h : (bodies.getLast?.bind Batch.read?).isSome) (p : Panel) :
    (p.takeResponses bodies).status = .live := by
  obtain ⟨b, hb⟩ := Option.isSome_iff_exists.1 h
  obtain ⟨latest, hlatest, hread⟩ := Option.bind_eq_some_iff.1 hb
  obtain ⟨earlier, rfl⟩ := List.getLast?_eq_some_iff.1 hlatest
  rw [status_takeResponses_concat, hread]
  rfl

/-- Batches leave a panel with the store that their merges leave. -/
theorem store_run_batches (p : Panel) (batches : List Batch) :
    (p.run (batches.map Op.ofBatch)).store =
      p.store.run (batches.map fun b => .merge b.points b.declared) := by
  induction batches generalizing p with
  | nil => rfl
  | cons b batches ih => exact ih (p.apply (.ofBatch b))

end Chart.Panel

theorem Store.foldl_deliver_batches (points : List Point) (batches : List Batch) :
    (batches.map fun b => Op.merge b.points b.declared).foldl deliver points =
      points ++ batches.flatMap (·.points) := by
  induction batches generalizing points with
  | nil => exact (List.append_nil points).symm
  | cons b batches ih =>
    rw [List.map_cons, List.foldl_cons, ih, List.flatMap_cons, ← List.append_assoc]
    rfl

namespace Replay

/-! ## The replayed panel -/

theorem takeBatches_eq_run (p : Panel) (batches : List Batch) :
    takeBatches p batches = p.run (batches.map Panel.Op.ofBatch) := by
  unfold takeBatches Panel.run
  rw [List.foldl_map]
  rfl

theorem status_takeBatches {batches : List Batch} (h : batches ≠ []) (p : Panel) :
    (takeBatches p batches).status = .live := by
  obtain ⟨earlier, latest, rfl⟩ := (List.eq_nil_or_concat' batches).resolve_left h
  rw [takeBatches_eq_run, List.map_append, List.map_singleton, Panel.run_concat]
  rfl

/-- With a batch among the responses the replay draws the chart of the live panel. -/
theorem body_frame_takeBatches (settings : PanelSettings) {bodies : List String}
    (h : bodies.filterMap Batch.read? ≠ []) (now : Int) :
    ((takeBatches (.new settings) (bodies.filterMap Batch.read?)).frame now).2.body =
      (((Panel.new settings).takeResponses bodies).frame now).2.body := by
  have hnew := Panel.isAt_new settings
  have halike := (Panel.dropsErrors_responses bodies).alike_run (Panel.alike_self _) hnew hnew
  rw [← Panel.takeResponses_eq_run, ← takeBatches_eq_run] at halike
  -- neither panel waits for data any more: the replay because of its batches, the live panel
  -- because of any response
  have hlive : ((Panel.new settings).takeResponses bodies).IsAt true :=
    Panel.isAt_takeResponses (fun hnil => h (by rw [hnil]; rfl)) _
  have hreplayed : (takeBatches (.new settings) (bodies.filterMap Batch.read?)).IsAt true := by
    show Panel.status _ ≠ .waiting
    rw [status_takeBatches h]
    exact nofun
  exact (halike.frame hlive hreplayed now).1.symm

/-! ## The time of the frame -/

/-- The newest time of some batches. -/
def newestTime? (batches : List Batch) : Option Int :=
  ((batches.flatMap (·.points)).map (·.timestamp)).max?

/-- The cursor of a replayed panel is at the newest time. -/
theorem cursor?_takeBatches (settings : PanelSettings) (batches : List Batch) :
    (takeBatches (.new settings) batches).store.cursor? = newestTime? batches := by
  rw [takeBatches_eq_run, Panel.store_run_batches]
  refine Option.ext fun t => ?_
  have hcursor := Store.cursor?_run_eq_some_iff settings.budget
    (batches.map fun b => .merge b.points b.declared) t
  rw [Store.delivered, Store.foldl_deliver_batches, List.nil_append] at hcursor
  refine hcursor.trans ?_
  rw [newestTime?, List.max?_eq_some_iff, List.mem_map, List.forall_mem_map]

/-- The names of the flags in the arguments that follow the file; what follows a name is its
value. -/
def flagNames : List String → List String
  | flag :: _ :: rest => flag :: flagNames rest
  | rest => rest

/-- Only one flag sets the time. -/
theorem now?_setFlag {settings : Settings} {r r' : Request} {flag text : String}
    (h : r.setFlag settings flag text = .ok r') (hflag : flag ≠ "--now") : r'.now? = r.now? := by
  unfold Request.setFlag at h
  split at h
  · cases h
    rfl
  · split at h
    · cases h
      rfl
    · cases h
  · exact absurd rfl hflag
  · split at h
    · cases h
      rfl
    · cases h
  · cases h

theorem now?_setFlags {settings : Settings} {r r' : Request} {flags : List String}
    (h : r.setFlags settings flags = .ok r') (hflags : "--now" ∉ flagNames flags) :
    r'.now? = r.now? := by
  fun_induction Request.setFlags settings r flags with
  | case1 r =>
    cases h
    rfl
  | case2 r flag => cases h
  | case3 r flag text rest r'' hset ih =>
    rw [flagNames, List.mem_cons, not_or] at hflags
    exact (ih h hflags.2).trans (now?_setFlag hset (Ne.symm hflags.1))
  | case4 r flag text rest e hset => cases h

/-! ## The program -/

/-- A request is answered with the frame of the replayed panel. -/
theorem answer_of_request {settings : Settings} {arguments : List String} {r : Request}
    (h : Request.ofArguments settings arguments = .ok r) (text : String) :
    let batches := (Recording.ofText text).batches
    ∃ report, (answer (m := Id) settings (fun _ => .ok text.toUTF8.data.toList) arguments) =
        .ok report ∧
      report.frame = ((takeBatches (startPanel settings r) batches).frame
        (r.now?.getD ((newestTime? batches).getD 0))).2 := by
  intro batches
  have hnow : frameTime r (takeBatches (startPanel settings r) batches) =
      r.now?.getD ((newestTime? batches).getD 0) := by
    unfold frameTime startPanel
    rw [cursor?_takeBatches, Option.getD_or]
  have hanswer : (answer (m := Id) settings (fun _ => .ok text.toUTF8.data.toList) arguments) =
      ofBytes settings r text.toUTF8.data.toList := by
    unfold answer
    rw [h]
    rfl
  rw [hanswer, ofBytes, Recording.ofBytes_toUTF8, ← hnow]
  exact ⟨_, rfl, rfl⟩

/-- A recording is replayed as it was polled. With a batch among the recorded responses, the frame
after its batches has the same body as the frame of a live panel after its responses, and if the
latest response is a batch the same banner. A board that polls these responses is such a live panel.
The program draws the frame of the replay, at the newest time among the batches unless a flag says
otherwise. -/
theorem frame_recorded (text : String) :
    let bodies := Recording.responses text
    let batches := (Recording.ofText text).batches
    (∀ (settings : PanelSettings) (now : Int), (∃ body ∈ bodies, (Batch.read? body).isSome) →
      let replayed := ((takeBatches (.new settings) batches).frame now).2
      let live := (((Panel.new settings).takeResponses bodies).frame now).2
      replayed.body = live.body ∧
        ((bodies.getLast?.bind Batch.read?).isSome → replayed.banner? = live.banner?)) ∧
    (∀ (b : Board) (address : Url.Address),
      Url.parse (b.settings.endpoint Settings.seriesPath) = .ok address →
        ∃ b', (b.pollSeriesTimes Http.inTurn bodies.length).run.run bodies = (.ok b', []) ∧
          b'.panel = b.panel.takeResponses bodies) ∧
    (∀ (settings : Settings) (path : String) (flags : List String) (r : Request),
      Request.ofArguments settings (path :: flags) = .ok r →
        (∃ report, (answer (m := Id) settings (fun _ => .ok text.toUTF8.data.toList)
              (path :: flags)) = .ok report ∧
            report.frame = ((takeBatches (startPanel settings r) batches).frame
              (r.now?.getD ((newestTime? batches).getD 0))).2) ∧
          ("--now" ∉ flagNames flags → r.now? = none)) := by
  intro bodies batches
  have hbatches : batches = bodies.filterMap Batch.read? := Recording.batches_ofText text
  refine ⟨fun settings now hbatch => ?_, fun b address haddress => ?_,
    fun settings path flags r hr => ?_⟩
  · obtain ⟨body, hbody, hread⟩ := hbatch
    have hne : bodies.filterMap Batch.read? ≠ [] := by
      obtain ⟨b, hb⟩ := Option.isSome_iff_exists.1 hread
      exact List.ne_nil_of_mem (List.mem_filterMap.2 ⟨body, hbody, hb⟩)
    rw [hbatches]
    refine ⟨body_frame_takeBatches settings hne now, fun hlatest => ?_⟩
    rw [Panel.banner?_frame, Panel.banner?_frame, Panel.banner?, Panel.banner?,
      status_takeBatches hne, Panel.status_takeResponses_of_batch hlatest]
  · exact ⟨_, b.run_pollSeriesTimes haddress bodies, rfl⟩
  · exact ⟨answer_of_request hr text, now?_setFlags hr⟩

/-- Of the recorded responses the second one is no batch. The program draws what a board shows that
polls all three of them. -/
theorem frame_recorded_of_failure :
    let text := "# opened\n\n [\x7b\"timestamp\": 100, \"a\": 10.5\x7d] \r\nbusy\n" ++
      "[\x7b\"timestamp\": 200, \"a\": 11\x7d]\n"
    let bodies := Recording.responses text
    let settings := Settings.ofEnvironment .empty
    let b : Board :=
      { service := ⟨settings, {}⟩, translator? := none, panel := .new settings.panel, filter := .all }
    bodies.map (fun body => (Batch.read? body).isSome) = [true, false, true] ∧
      ∃ report b', (answer (m := Id) settings (fun _ => .ok text.toUTF8.data.toList)
          ["session.jsonl"]) = .ok report ∧
        (b.pollSeriesTimes Http.inTurn bodies.length).run.run bodies = (.ok b', []) ∧
        report.frame = (b'.panel.frame 200).2 := by
  intro text bodies settings b
  obtain ⟨hframes, hboard, hprogram⟩ := frame_recorded text
  have hreads : bodies.map (fun body => (Batch.read? body).isSome) = [true, false, true] := by
    decide +kernel
  have hbatch : ∃ body ∈ bodies, (Batch.read? body).isSome :=
    List.mem_map.1 (hreads ▸ List.mem_cons_self : true ∈ bodies.map _)
  have hlatest : (bodies.getLast?.bind Batch.read?).isSome := by decide +kernel
  have hnewest : newestTime? (Recording.ofText text).batches = some 200 := by decide +kernel
  have hparse : (Url.parse (settings.endpoint Settings.seriesPath)).toOption.isSome := by
    decide +kernel
  obtain ⟨hbody, hbanner⟩ := hframes settings.panel 200 hbatch
  obtain ⟨⟨report, hreport, hframe⟩, -⟩ := hprogram settings "session.jsonl" [] _ rfl
  have hstart : startPanel settings ⟨"session.jsonl", settings.selection, none,
      settings.viewportWidth⟩ = .new settings.panel := rfl
  have hpanel : b.panel = .new settings.panel := rfl
  rw [hnewest, Option.getD_none, Option.getD_some, hstart] at hframe
  cases haddress : Url.parse (settings.endpoint Settings.seriesPath) with
  | error e =>
    rw [haddress] at hparse
    cases hparse
  | ok address =>
    obtain ⟨b', hpolled, hlive⟩ := hboard b address haddress
    refine ⟨hreads, report, b', hreport, hpolled, ?_⟩
    rw [hlive, hframe, hpanel]
    exact Chart.Frame.ext (hbanner hlatest) hbody

end Replay

end EquityBoard
