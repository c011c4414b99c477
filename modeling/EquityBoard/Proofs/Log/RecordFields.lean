import EquityBoard.Log.Record

/-!
# Where the fields of a record stand

A record replaces the secrets among its fields, lifts a few fields to its top and keeps all others
together. Fields that differ in secrets alone have one record (`redact_congr`, `ofFields_congr`). Its
document shows the header whatever the fields are named, and every field in one place (`Shows`). Main
statement: `toJson_ofFields`.
-/

namespace EquityBoard.Log

/-! ## Secrets -/

/-- A secret field has a fixed value in place of its own; the others keep theirs. -/
@[simp] theorem get?_redact (fields : KeyMap Json) (name : String) :
    (redact fields).get? name =
      if name ∈ secretFields then (fields.get? name).map fun _ => redacted
      else fields.get? name := by
  rw [redact, KeyMap.get?_filterMap]
  cases fields.get? name <;> split <;> simp [*]

/-- Without its secrets, a map of fields is the same for all secrets. -/
theorem redact_congr {fields other : KeyMap Json}
    (hnames : ∀ name, other.contains name = fields.contains name)
    (hvalues : ∀ name, name ∉ secretFields → other.get? name = fields.get? name) :
    redact other = redact fields := by
  apply KeyMap.ext_get?
  intro name
  rw [get?_redact, get?_redact]
  split
  · have hname : (other.get? name).isSome = (fields.get? name).isSome := hnames name
    cases ho : other.get? name <;> cases hf : fields.get? name <;> simp_all
  · exact hvalues name ‹_›

/-- The fields that stand outside of the data. -/
theorem isOutside_iff (name : String) :
    isOutside name = true ↔ name ∈ ["model_id", "card_key", "endpoint", "msg"] := by
  simp [isOutside, topFields, or_assoc]

/-- No secret stands outside the data. -/
theorem not_mem_secretFields {name : String} (h : isOutside name = true) : name ∉ secretFields := by
  simp only [isOutside_iff, List.mem_cons, List.not_mem_nil, or_false] at h
  rcases h with rfl | rfl | rfl | rfl <;> decide

namespace Record

/-! ## The parts of a record -/

variable (level : Level) (component event : String) (fields : KeyMap Json)

/-- A record has its fields without their secrets only. -/
theorem ofFields_congr {fields other : KeyMap Json} (h : redact other = redact fields) :
    ofFields level component event other = ofFields level component event fields := by
  unfold ofFields
  rw [h]

@[simp] theorem level_ofFields : (ofFields level component event fields).level = level := rfl

@[simp] theorem component_ofFields :
    (ofFields level component event fields).component = component := rfl

@[simp] theorem event_ofFields : (ofFields level component event fields).event = event := rfl

@[simp] theorem message_ofFields :
    (ofFields level component event fields).message =
      (fields.get? "msg").getD (.string "") := by
  show ((redact fields).get? "msg").getD (.string "") = _
  rw [get?_redact, if_neg (not_mem_secretFields rfl)]

/-- The fields at the top are those of the record that belong there. -/
theorem get?_top_ofFields (name : String) :
    (ofFields level component event fields).top.get? name =
      if name ∈ topFields then fields.get? name else none := by
  show (KeyMap.filterMap _ (redact fields)).get? name = _
  rw [KeyMap.get?_filterMap, get?_redact]
  by_cases htop : name ∈ topFields
  · have hopen : name ∉ secretFields := not_mem_secretFields (by simp [isOutside, htop])
    rw [if_neg hopen, if_pos htop]
    simp [htop]
  · simp [htop]

/-- The data are all other fields, the secret ones redacted. -/
theorem get?_data_ofFields (name : String) :
    (ofFields level component event fields).data.get? name =
      if isOutside name then none else (redact fields).get? name := by
  show (KeyMap.filterMap _ (redact fields)).get? name = _
  rw [KeyMap.get?_filterMap]
  split <;> simp [*]

/-! ## The document of a record -/

/-- The parts of a record that are no fields, and its message. -/
def header (r : Record) (stamp : Stamp) : KeyMap Json :=
  .ofList [
    ("ts", .string stamp.time),
    ("run_id", .string stamp.run),
    ("seq", .ofNat stamp.seq),
    ("lvl", .string (Text.upper r.level.name)),
    ("component", .string r.component),
    ("event", .string r.event),
    ("msg", r.message)]

/-- The document of a record as a map. -/
def document (r : Record) (stamp : Stamp) : KeyMap Json :=
  ((r.header stamp).overlay r.top).insert "data" (.ofMap r.data)

theorem toJson_eq (r : Record) (stamp : Stamp) : r.toJson stamp = .ofMap (r.document stamp) := rfl

/-- What stands in the header of a record. -/
theorem get?_header (r : Record) (stamp : Stamp) (name : String) :
    (r.header stamp).get? name =
      if name = "msg" then some r.message
      else if name = "event" then some (.string r.event)
      else if name = "component" then some (.string r.component)
      else if name = "lvl" then some (.string (Text.upper r.level.name))
      else if name = "seq" then some (.ofNat stamp.seq)
      else if name = "run_id" then some (.string stamp.run)
      else if name = "ts" then some (.string stamp.time)
      else none := by
  simp only [header, KeyMap.ofList, List.foldl_cons, List.foldl_nil, KeyMap.get?_insert,
    KeyMap.get?_empty]

/-- At the top of a document stand the data of its record, the lifted fields and the header. -/
theorem get?_document_ofFields (stamp : Stamp) (name : String) :
    ((ofFields level component event fields).document stamp).get? name =
      if name = "data" then some (.ofMap (ofFields level component event fields).data)
      else if name ∈ ["model_id", "card_key", "endpoint"] then fields.get? name
      else ((ofFields level component event fields).header stamp).get? name := by
  rw [document, KeyMap.get?_insert, KeyMap.get?_overlay, get?_top_ofFields]
  split
  · rfl
  · by_cases htop : name ∈ topFields
    · have hheader : ((ofFields level component event fields).header stamp).get? name = none := by
        rw [get?_header]
        simp only [topFields, List.mem_cons, List.not_mem_nil, or_false] at htop
        rcases htop with rfl | rfl | rfl <;> rfl
      have hname : name ∈ ["model_id", "card_key", "endpoint"] := htop
      rw [if_pos htop, if_pos hname, hheader, Option.or_none]
    · have hname : name ∉ ["model_id", "card_key", "endpoint"] := htop
      rw [if_neg htop, if_neg hname, Option.none_or]

/-- The documents of one record in one run differ in time and place only. -/
theorem get?_document_of_run (r : Record) {stamp later : Stamp} (hrun : later.run = stamp.run)
    {name : String} (htime : name ≠ "ts") (hseq : name ≠ "seq") :
    (r.document later).get? name = (r.document stamp).get? name := by
  simp only [document, KeyMap.get?_insert, KeyMap.get?_overlay, get?_header, hrun, htime, hseq,
    if_false]

/-! ## Where each field stands -/

/-- What the document of a record shows at its top and in its data: no field in place of the header,
each lifted field at the top alone, each other field in the data alone, and nothing else. -/
structure Shows (top data : KeyMap Json) (stamp : Stamp) : Prop where
  time : top.get? "ts" = some (.string stamp.time)
  run : top.get? "run_id" = some (.string stamp.run)
  seq : top.get? "seq" = some (.ofNat stamp.seq)
  level : top.get? "lvl" = some (.string (Text.upper level.name))
  component : top.get? "component" = some (.string component)
  event : top.get? "event" = some (.string event)
  message : top.get? "msg" = some ((fields.get? "msg").getD (.string ""))
  lifted : ∀ name ∈ ["model_id", "card_key", "endpoint"], top.get? name = fields.get? name
  others : top.get? "data" = some (.ofMap data)
  closed : ∀ name, name ∉ ["ts", "run_id", "seq", "lvl", "component", "event", "msg", "model_id",
    "card_key", "endpoint", "data"] → top.get? name = none
  outside : ∀ name ∈ ["model_id", "card_key", "endpoint", "msg"], data.get? name = none
  kept : ∀ name, name ∉ ["model_id", "card_key", "endpoint", "msg"] →
    name ∉ ["authorization", "Authorization", "api_key", "token", "bearer"] →
    data.get? name = fields.get? name
  hidden : ∀ name ∈ ["authorization", "Authorization", "api_key", "token", "bearer"],
    data.get? name = (fields.get? name).map fun _ => .string "[REDACTED]"

/-- The document of a record shows every field in its place. -/
theorem shows_document (stamp : Stamp) :
    Shows level component event fields ((ofFields level component event fields).document stamp)
      (ofFields level component event fields).data stamp where
  time := by simp [get?_document_ofFields, get?_header]
  run := by simp [get?_document_ofFields, get?_header]
  seq := by simp [get?_document_ofFields, get?_header]
  level := by simp [get?_document_ofFields, get?_header]
  component := by simp [get?_document_ofFields, get?_header]
  event := by simp [get?_document_ofFields, get?_header]
  message := by simp [get?_document_ofFields, get?_header]
  lifted name h := by
    have hdata : name ≠ "data" := fun hname => absurd h (by rw [hname]; decide)
    rw [get?_document_ofFields, if_neg hdata, if_pos h]
  others := by rw [get?_document_ofFields, if_pos rfl]
  closed name h := by
    simp only [List.mem_cons, List.not_mem_nil, or_false, not_or] at h
    simp [get?_document_ofFields, get?_header, h]
  outside name h := by rw [get?_data_ofFields, if_pos ((isOutside_iff name).2 h)]
  kept name hin hopen := by
    have hopen : name ∉ secretFields := hopen
    rw [get?_data_ofFields, if_neg (mt (isOutside_iff name).1 hin), get?_redact, if_neg hopen]
  hidden name h := by
    have hsecret : name ∈ secretFields := h
    have hin : ¬ isOutside name = true := fun hout => not_mem_secretFields hout hsecret
    rw [get?_data_ofFields, if_neg hin, get?_redact, if_pos hsecret]
    rfl

/-- The document of a record shows every field that is no secret, unchanged and in one place, and the
header whatever the fields are named. Of the secrets it shows that they are there: fields that have the
same names and differ in secrets alone have the same document, but for the time and the place of a
later record of the same run. -/
theorem toJson_ofFields (stamp : Stamp) :
    ∃ top data, (ofFields level component event fields).toJson stamp = .ofMap top ∧
      Shows level component event fields top data stamp ∧
      ∀ (other : KeyMap Json) (later : Stamp), later.run = stamp.run →
        (∀ name, other.contains name = fields.contains name) →
        (∀ name, name ∉ ["authorization", "Authorization", "api_key", "token", "bearer"] →
          other.get? name = fields.get? name) →
        ∃ top', (ofFields level component event other).toJson later = .ofMap top' ∧
          ∀ name, name ≠ "ts" → name ≠ "seq" → top'.get? name = top.get? name := by
  refine ⟨_, _, toJson_eq _ stamp, shows_document level component event fields stamp, ?_⟩
  intro other later hrun hnames hvalues
  rw [ofFields_congr level component event (redact_congr hnames hvalues)]
  exact ⟨_, toJson_eq _ later, fun name htime hseq => get?_document_of_run _ hrun htime hseq⟩

/-- Two tokens, one after the other in one run, leave the same data; a field that has the name of a
part of the header stands in the data, too. -/
theorem toJson_ofFields_of_token :
    let fields (token : String) : KeyMap Json :=
      .ofList [("lvl", .string "low"), ("token", .string token)]
    let stamp : Stamp := ⟨"2024-01-01T00:00:00.000Z", "r", 0⟩
    let later : Stamp := ⟨"2024-01-01T00:00:01.000Z", "r", 1⟩
    later.run = stamp.run ∧ (∀ name, (fields "b").contains name = (fields "a").contains name) ∧
      ∃ top top' data,
        (ofFields .warn "feed" "fetch_error" (fields "a")).toJson stamp = .ofMap top ∧
        (ofFields .warn "feed" "fetch_error" (fields "b")).toJson later = .ofMap top' ∧
        top.get? "data" = some (.ofMap data) ∧ top'.get? "data" = some (.ofMap data) ∧
        data.get? "lvl" = some (.string "low") ∧
        data.get? "token" = some (.string "[REDACTED]") := by
  intro fields stamp later
  have hget (token name : String) : (fields token).get? name =
      if name = "token" then some (.string token)
      else if name = "lvl" then some (.string "low") else none := by
    simp [fields, KeyMap.ofList]
  have hnames (name : String) : (fields "b").contains name = (fields "a").contains name := by
    unfold KeyMap.contains
    rw [hget, hget]
    split <;> rfl
  have hvalues (name : String)
      (h : name ∉ ["authorization", "Authorization", "api_key", "token", "bearer"]) :
      (fields "b").get? name = (fields "a").get? name := by
    have htoken : name ≠ "token" := fun hname => h (by rw [hname]; decide)
    rw [hget, hget, if_neg htoken, if_neg htoken]
  obtain ⟨top, data, hdocument, hshows, hsame⟩ :=
    toJson_ofFields .warn "feed" "fetch_error" (fields "a") stamp
  obtain ⟨top', hdocument', hagree⟩ := hsame (fields "b") later rfl hnames hvalues
  refine ⟨rfl, hnames, top, top', data, hdocument, hdocument', hshows.others, ?_, ?_, ?_⟩
  · rw [hagree "data" (by decide) (by decide), hshows.others]
  · rw [hshows.kept "lvl" (by decide) (by decide), hget]
    rfl
  · rw [hshows.hidden "token" (by decide), hget]
    rfl

end Record

end EquityBoard.Log
