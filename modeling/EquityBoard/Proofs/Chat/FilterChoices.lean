import EquityBoard.Proofs.Chat.ListedCards
import EquityBoard.Proofs.Chat.SharedKeys
import EquityBoard.Series.ModelSet
import Mathlib.Data.List.Nodup

/-!
# The choices of a filter

The chat offers a choice for all cards and, behind it, one for each model. A choice is read as any
text for a filter is: without the white space around it, and as all models if nothing is left or if
it says so (`parse_eq`). So a choice lists the cards of its model if the id reads as itself, or if
there are no other cards (`isFaithful_iff`), and such choices share out the list of all cards.
Main statement: `modelOptions_choices`. An id with white space around it lists nothing, and a model
called `all` lists everything (`not_isFaithful_of_blank_and_all`).
-/

namespace EquityBoard.Chat

/-- Whether a text for a filter stands for all models. -/
def ModelFilter.asksForAll (s : String) : Bool :=
  (Text.trim s).isEmpty || Text.lower (Text.trim s) == "all"

/-- Any other text is the id of a model, with white space around it. -/
theorem ModelFilter.parse_eq (s : String) :
    parse s = if asksForAll s then .all else .model (Text.trim s) :=
  rfl

namespace ConversationFeed

variable (feed : ConversationFeed)

/-! ## The choices -/

/-- The choices are collected as the known models are, from `ALL` on. -/
theorem modelOptions_eq_ids :
    feed.modelOptions = ((ModelSet.ofList ["ALL"]).insertAll (feed.items.map (·.model))).ids := by
  have hcollect : ∀ (cards : List Conversation) (s : ModelSet),
      cards.foldl (fun out c => if out.contains c.model then out else out ++ [c.model]) s.ids =
        (s.insertAll (cards.map (·.model))).ids := by
    intro cards
    induction cards with
    | nil => exact fun s => rfl
    | cons c cards ih =>
      intro s
      have hfirst : (if s.ids.contains c.model then s.ids else s.ids ++ [c.model]) =
          (s.insert c.model).ids := by
        rw [ModelSet.ids_insert]
        simp only [List.contains_iff_mem]
      rw [List.foldl_cons, hfirst]
      exact ih (s.insert c.model)
  exact hcollect feed.items (.ofList ["ALL"])

theorem modelOptions_eq_cons : feed.modelOptions = "ALL" :: feed.modelOptions.tail := by
  obtain ⟨later, hlater⟩ :=
    (ModelSet.ofList ["ALL"]).prefix_insertAll (feed.items.map (·.model))
  rw [modelOptions_eq_ids, ← hlater]
  rfl

/-- Every option is offered once. -/
theorem nodup_modelOptions : feed.modelOptions.Nodup := by
  rw [modelOptions_eq_ids]
  exact ModelSet.nodup _

/-- The options are the one for all models and the models of the feed. -/
theorem mem_modelOptions (option : String) :
    option ∈ feed.modelOptions ↔ option = "ALL" ∨ ∃ c ∈ feed.items, c.model = option := by
  rw [modelOptions_eq_ids, ModelSet.mem_insertAll, List.mem_map]
  exact or_congr List.mem_singleton Iff.rfl

/-- The choices behind the first one are the models of the feed. -/
theorem mem_tail_modelOptions (option : String) :
    option ∈ feed.modelOptions.tail ↔ option ≠ "ALL" ∧ ∃ c ∈ feed.items, c.model = option := by
  have hmem := feed.mem_modelOptions option
  have hnodup := feed.nodup_modelOptions
  rw [modelOptions_eq_cons, List.mem_cons] at hmem
  rw [modelOptions_eq_cons] at hnodup
  have hnot : option ∈ feed.modelOptions.tail → option ≠ "ALL" := by
    rintro h rfl
    exact (List.nodup_cons.1 hnodup).1 h
  constructor
  · intro h
    exact ⟨hnot h, (hmem.1 (Or.inr h)).resolve_left (hnot h)⟩
  · rintro ⟨hne, hmodel⟩
    exact (hmem.2 (Or.inr hmodel)).resolve_left hne

/-! ## What a choice lists -/

/-- Whether a choice lists the cards of the model of that id and no others. -/
def IsFaithful (option : String) : Prop :=
  feed.list (.parse option) = (feed.list .all).filter fun c => c.model = option

/-- An option lists all cards, or those of the model that it names. -/
theorem list_parse (option : String) :
    feed.list (.parse option) =
      if ModelFilter.asksForAll option then feed.list .all
      else (feed.list .all).filter fun c => c.model = Text.trim option := by
  rw [ModelFilter.parse_eq]
  split
  · rfl
  · rw [list_eq_filter_list_all]
    refine List.filter_congr fun c _ => ?_
    rw [ModelFilter.accepts, Bool.beq_eq_decide_eq, decide_eq_decide, eq_comm]

/-- A choice is faithful exactly if it reads as itself, or if it stands for all models and there are
no others. -/
theorem isFaithful_iff {option : String} (h : ∃ c ∈ feed.items, c.model = option) :
    feed.IsFaithful option ↔
      if ModelFilter.asksForAll option then ∀ c ∈ feed.items, c.model = option
      else Text.trim option = option := by
  have hall : ∀ c, c ∈ feed.list .all ↔ c ∈ feed.items := fun c => by
    rw [mem_list]
    exact and_iff_left rfl
  unfold IsFaithful
  rw [list_parse]
  split
  · rw [eq_comm, List.filter_eq_self]
    simp only [hall, decide_eq_true_eq]
  · constructor
    · intro hlists
      obtain ⟨c, hc, hmodel⟩ := h
      have hmem : c ∈ (feed.list .all).filter fun c => c.model = option :=
        List.mem_filter.2 ⟨(hall c).2 hc, decide_eq_true hmodel⟩
      rw [← hlists, List.mem_filter, decide_eq_true_eq] at hmem
      exact hmem.2.symm.trans hmodel
    · intro htrim
      rw [htrim]

/-! ## Sharing out the cards -/

/-- The models of some cards share them out. -/
theorem flatMap_model_perm {ids : List String} (hids : ids.Nodup) {cards : List Conversation}
    (h : ∀ c ∈ cards, c.model ∈ ids) :
    (ids.flatMap fun id => cards.filter fun c => c.model = id).Perm cards := by
  induction ids generalizing cards with
  | nil =>
    rw [List.eq_nil_iff_forall_not_mem.2 fun c hc => List.not_mem_nil (h c hc)]
    exact List.Perm.refl _
  | cons id ids ih =>
    obtain ⟨hid, hids⟩ := List.nodup_cons.1 hids
    -- the other models share out the cards that are not of the first one
    have hothers : (ids.flatMap fun other => (cards.filter fun c => !decide (c.model = id)).filter
        fun c => c.model = other).Perm (cards.filter fun c => !decide (c.model = id)) := by
      refine ih hids fun c hc => ?_
      rw [List.mem_filter, Bool.not_eq_true', decide_eq_false_iff_not] at hc
      exact (List.mem_cons.1 (h c hc.1)).resolve_left hc.2
    have hsame : (ids.flatMap fun other => (cards.filter fun c => !decide (c.model = id)).filter
        fun c => c.model = other) =
        ids.flatMap fun other => cards.filter fun c => c.model = other := by
      refine List.flatMap_congr fun other hother => ?_
      rw [List.filter_filter]
      refine List.filter_congr fun c _ => ?_
      have hne : c.model = other → c.model ≠ id := by
        rintro rfl rfl
        exact hid hother
      simpa using hne
    rw [hsame] at hothers
    exact (hothers.append_left _).trans (List.filter_append_perm _ cards)

/-- What the choices of a filter offer. Behind `ALL` each other model is listed once. A choice that
stands for all models lists all cards, and any other one those of the model that it names without
the white space around it. So it lists the cards of its own model if it has no white space around it
and does not stand for all models, or if there are no other cards; and if all choices do, they share
out the cards. -/
theorem modelOptions_choices :
    feed.modelOptions = "ALL" :: feed.modelOptions.tail ∧
      (∀ c ∈ feed.items, c.model ≠ "ALL" → feed.modelOptions.tail.count c.model = 1) ∧
      (∀ option ∈ feed.modelOptions.tail,
        (feed.list (.parse option) =
          if ModelFilter.asksForAll option then feed.list .all
          else (feed.list .all).filter fun c => c.model = Text.trim option) ∧
        (feed.IsFaithful option ↔
          if ModelFilter.asksForAll option then ∀ c ∈ feed.items, c.model = option
          else Text.trim option = option)) ∧
      ((∀ c ∈ feed.items, c.model ≠ "ALL" ∧ feed.IsFaithful c.model) →
        (feed.modelOptions.tail.flatMap fun option => feed.list (.parse option)).Perm
          (feed.list .all)) := by
  have hnodup : feed.modelOptions.tail.Nodup := feed.nodup_modelOptions.tail
  refine ⟨feed.modelOptions_eq_cons, fun c hc hne => ?_, fun option hoption => ?_, fun hall => ?_⟩
  · exact List.count_eq_one_of_mem hnodup ((feed.mem_tail_modelOptions _).2 ⟨hne, c, hc, rfl⟩)
  · exact ⟨feed.list_parse option,
      feed.isFaithful_iff ((feed.mem_tail_modelOptions option).1 hoption).2⟩
  · have hlists : (feed.modelOptions.tail.flatMap fun option => feed.list (.parse option)) =
        feed.modelOptions.tail.flatMap fun option =>
          (feed.list .all).filter fun c => c.model = option := by
      refine List.flatMap_congr fun option hoption => ?_
      obtain ⟨_, c, hc, rfl⟩ := (feed.mem_tail_modelOptions option).1 hoption
      exact (hall c hc).2
    rw [hlists]
    refine flatMap_model_perm hnodup fun c hc => ?_
    have hitem := ((feed.mem_list .all c).1 hc).1
    exact (feed.mem_tail_modelOptions _).2 ⟨(hall c hitem).1, c, hitem, rfl⟩

/-- Two models, one of which spoke twice. -/
theorem modelOptions_choices_of_plain_ids :
    let entry (model : String) (time : Int) : Json :=
      .object [("model_id", .string model), ("timestamp", .ofInt time)]
    let feed := ofJson (.array [entry "gpt-5" 100, entry "claude" 300, entry "gpt-5" 200])
    feed.modelOptions = ["ALL", "gpt-5", "claude"] ∧
      (∀ c ∈ feed.items, c.model ≠ "ALL" ∧ feed.IsFaithful c.model) ∧
      (["gpt-5", "claude"].flatMap fun option => feed.list (.parse option)).Perm
        (feed.list .all) := by
  intro entry feed
  let card (model : String) (time : Int) : Conversation := ⟨model, time, "", "", .null, .null⟩
  have hitems : feed.items = [card "gpt-5" 100, card "claude" 300, card "gpt-5" 200] := by rfl
  have hplain : ∀ c ∈ feed.items, c.model ≠ "ALL" ∧
      ModelFilter.asksForAll c.model = false ∧ Text.trim c.model = c.model := by
    rw [hitems]
    decide +kernel
  have hfaithful : ∀ c ∈ feed.items, c.model ≠ "ALL" ∧ feed.IsFaithful c.model := by
    intro c hc
    obtain ⟨hne, hasks, htrim⟩ := hplain c hc
    refine ⟨hne, (feed.isFaithful_iff ⟨c, hc, rfl⟩).2 ?_⟩
    rw [hasks]
    exact htrim
  exact ⟨by rfl, hfaithful, (modelOptions_choices feed).2.2.2 hfaithful⟩

/-- A model whose id has white space around it, one called `all`, one called `ALL` and a fourth one.
The choice of the first lists nothing, that of the second lists everything, the third has no choice
behind `ALL`, and the choices do not share out the cards. -/
theorem not_isFaithful_of_blank_and_all :
    let entry (model : String) (time : Int) : Json :=
      .object [("model_id", .string model), ("timestamp", .ofInt time)]
    let feed := ofJson (.array [entry " a " 4, entry "all" 3, entry "ALL" 2, entry "b" 1])
    feed.modelOptions = ["ALL", " a ", "all", "b"] ∧ feed.modelOptions.tail.count "ALL" = 0 ∧
      feed.list (.parse " a ") = [] ∧ ¬ feed.IsFaithful " a " ∧
      feed.list (.parse "all") = feed.list .all ∧ ¬ feed.IsFaithful "all" ∧
      ¬ (feed.modelOptions.tail.flatMap fun option => feed.list (.parse option)).Perm
        (feed.list .all) := by
  intro entry feed
  let card (model : String) (time : Int) : Conversation := ⟨model, time, "", "", .null, .null⟩
  have hitems : feed.items = [card " a " 4, card "all" 3, card "ALL" 2, card "b" 1] := by rfl
  have hlist : ∀ filter, feed.list filter =
      [card " a " 4, card "all" 3, card "ALL" 2, card "b" 1].filter
        fun c => filter.accepts c.model := by
    intro filter
    rw [feed.list_of_newestFirst (by rw [hitems]; decide), hitems]
  have hoptions : feed.modelOptions = ["ALL", " a ", "all", "b"] := by rfl
  have hblank : ¬ feed.IsFaithful " a " := by
    rw [feed.isFaithful_iff ⟨card " a " 4, by rw [hitems]; exact .head _, rfl⟩]
    decide +kernel
  have hall : ¬ feed.IsFaithful "all" := by
    rw [feed.isFaithful_iff ⟨card "all" 3, by rw [hitems]; exact .tail _ (.head _), rfl⟩, hitems]
    decide +kernel
  refine ⟨hoptions, by rw [hoptions]; decide, ?_, hblank, ?_, hall, fun hshares => ?_⟩
  · rw [hlist]
    decide +kernel
  · rw [hlist, hlist]
    rfl
  · -- the second choice alone lists all four cards, and the last one another card
    have hlength := hshares.length_eq
    rw [hoptions] at hlength
    simp only [hlist] at hlength
    exact absurd hlength (by decide +kernel)

end ConversationFeed

end EquityBoard.Chat
