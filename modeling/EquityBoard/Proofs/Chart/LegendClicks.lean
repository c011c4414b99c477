import EquityBoard.Proofs.Chart.PanelRuns
import Mathlib.Data.List.Induction

/-!
# What the legend shows

The legend holds a set of ids and nothing of its past, while the known models go on growing. What it
selects is told by the latest event that could change it: either a click that left its model alone,
or the first batch or a second click that selected all models known then (`Panel.Fills`). Models that
come later are not among them. Main statement: `legend_run`.
-/

namespace EquityBoard

/-! ## Selections -/

namespace Legend

/-- Exactly the models of a list are selected. -/
def Selects (l : Legend) (ids : List String) : Prop :=
  ∀ model, l.active.contains model = true ↔ model ∈ ids

/-- A legend selects some models exactly if its set is made of them. -/
theorem selects_iff (l : Legend) (ids : List String) :
    l.Selects ids ↔ l.active.entries = (KeySet.ofList ids).entries := by
  constructor
  · intro h
    have hactive : l.active = KeySet.ofList ids := KeySet.ext_contains fun id => by
      rw [h, KeySet.contains_ofList]
    rw [hactive]
  · intro h model
    rw [← KeySet.contains_ofList, KeyMap.contains, KeyMap.get?, h]
    rfl

instance (l : Legend) (ids : List String) : Decidable (l.Selects ids) :=
  decidable_of_iff _ (l.selects_iff ids).symm

/-- A legend without members selects nothing. -/
theorem selects_nil_iff (l : Legend) : l.Selects [] ↔ l.active.isEmpty = true := by
  rw [KeyMap.isEmpty_iff]
  simp [Selects]

theorem selects_all (models : ModelSet) : (all models).Selects models.ids :=
  KeySet.contains_ofList models.ids

theorem selects_only (id : String) : (only id).Selects [id] := KeySet.contains_ofList [id]

/-- A legend that selects a model does not select nothing. -/
theorem Selects.not_nil {l : Legend} {ids : List String} (h : l.Selects ids) (hids : ids ≠ []) :
    ¬ l.Selects [] := by
  obtain ⟨id, rest, rfl⟩ := List.exists_cons_of_ne_nil hids
  intro hnil
  exact List.not_mem_nil ((hnil id).1 ((h id).2 List.mem_cons_self))

/-- Of a selection that is not empty the selected models are visible, and no others. -/
theorem Selects.isVisible_iff {l : Legend} {ids : List String} (h : l.Selects ids) (hids : ids ≠ [])
    (model : String) : l.isVisible model = true ↔ model ∈ ids := by
  have hempty : l.active.isEmpty = false :=
    Bool.eq_false_iff.2 fun hempty => h.not_nil hids (l.selects_nil_iff.2 hempty)
  rw [isVisible, hempty, Bool.false_or]
  exact h model

/-! ## Seeding and clicks -/

/-- A legend that selects nothing is filled. -/
theorem seed_of_selects_nil {l : Legend} (h : l.Selects []) (models : ModelSet) :
    l.seed models = all models := if_pos (l.selects_nil_iff.1 h)

/-- A legend that selects something stays as it is when more models come. -/
theorem seed_of_not_selects_nil {l : Legend} (h : ¬ l.Selects []) (models : ModelSet) :
    l.seed models = l := if_neg (mt l.selects_nil_iff.2 h)

/-- What a click looks for is that its model is selected alone. -/
theorem selects_singleton_iff (l : Legend) (id : String) :
    l.Selects [id] ↔ l.active.size = 1 ∧ l.active.contains id = true := by
  constructor
  · intro h
    refine ⟨?_, (h id).2 List.mem_cons_self⟩
    rw [KeyMap.size, (l.selects_iff [id]).1 h]
    rfl
  · rintro ⟨hsize, hid⟩ model
    obtain ⟨entry, hentry⟩ := List.length_eq_one_iff.1 hsize
    -- a lone entry is that of the clicked model
    have hmember : ∀ k, l.active.contains k = true ↔ k = entry.1 := fun k => by
      rw [KeyMap.contains, KeyMap.get?, hentry]
      by_cases hk : k = entry.1 <;> simp [KeyMap.seek, hk]
    rw [hmember, ← (hmember id).1 hid, List.mem_singleton]

/-- A click on the only selected model selects all of them. -/
theorem toggle_of_selects {l : Legend} {id : String} (h : l.Selects [id]) (models : ModelSet) :
    l.toggle id models = all models := if_pos ((l.selects_singleton_iff id).1 h)

/-- Any other click selects its own model alone. -/
theorem toggle_of_not_selects {l : Legend} {id : String} (h : ¬ l.Selects [id])
    (models : ModelSet) : l.toggle id models = only id :=
  if_neg (mt (l.selects_singleton_iff id).2 h)

end Legend

namespace Chart.Panel

/-! ## Events that change the selection -/

/-- The events that leave a legend with a selection as it is. -/
def Op.keepsLegend : Op → Bool
  | .toggle _ => false
  | .dispose => false
  | _ => true

/-- An event at which the legend selects every known model: a batch when nothing is selected, or a
click on the only selected model. -/
def Fills (p : Panel) : Op → Prop
  | .batch _ _ => p.legend.Selects []
  | .toggle id => p.legend.Selects [id]
  | _ => False

/-- After an event that fills the legend every known model is selected. -/
theorem Fills.selects {p : Panel} {op : Op} (h : p.Fills op) :
    (p.apply op).legend.Selects (p.apply op).store.models.ids := by
  cases op with
  | batch points declared =>
    show (p.legend.seed _).Selects _
    rw [Legend.seed_of_selects_nil h]
    exact Legend.selects_all _
  | toggle id =>
    show (p.legend.toggle id p.store.models).Selects p.store.models.ids
    rw [Legend.toggle_of_selects h]
    exact Legend.selects_all _
  | error | range _ | mode _ | resize _ | dispose | frame _ => exact h.elim

/-- A drawing leaves the legend as it is. -/
theorem legend_frame (p : Panel) (now : Int) : (p.frame now).1.legend = p.legend := by
  obtain ⟨store, animation, hframe⟩ := exists_frame_fst p now
  rw [hframe]

/-- Only a batch, a click and the dropping of the data change the selection, and a batch only an
empty one. -/
theorem legend_apply {p : Panel} {op : Op} (h : op.keepsLegend = true) (hfills : ¬ p.Fills op) :
    (p.apply op).legend = p.legend := by
  cases op with
  | batch points declared => exact Legend.seed_of_not_selects_nil hfills _
  | toggle id => cases h
  | dispose => cases h
  | frame now => exact legend_frame p now
  | error | range _ | mode _ | resize _ => rfl

/-! ## The latest change -/

/-- The latest event that could change a selection, and the events before it. -/
def IsLatestChange (ops before : List Op) (op : Op) : Prop :=
  ∃ later, ops = before ++ op :: later ∧ ∀ e ∈ later, e.keepsLegend = true

/-- An event is its own latest change. -/
theorem isLatestChange_concat (ops : List Op) (op : Op) : IsLatestChange (ops ++ [op]) ops op :=
  ⟨[], rfl, nofun⟩

/-- An event that keeps the selection leaves the latest change the latest. -/
theorem IsLatestChange.concat {ops before : List Op} {op e : Op} (h : IsLatestChange ops before op)
    (he : e.keepsLegend = true) : IsLatestChange (ops ++ [e]) before op := by
  obtain ⟨later, rfl, hlater⟩ := h
  refine ⟨later ++ [e], by rw [List.append_assoc, List.cons_append], fun e' he' => ?_⟩
  rcases List.mem_append.1 he' with he' | he'
  · exact hlater e' he'
  · rwa [List.mem_singleton.1 he']

/-- The models that were known at the latest change are the first of those known now. -/
theorem IsLatestChange.prefix_models {ops before : List Op} {op : Op}
    (h : IsLatestChange ops before op) (settings : PanelSettings) :
    (((new settings).run before).apply op).store.models.ids <+:
      ((new settings).run ops).store.models.ids := by
  obtain ⟨later, rfl, hlater⟩ := h
  rw [run_append, run_cons]
  exact prefix_run _ fun hdispose => Bool.false_ne_true (hlater _ hdispose)

/-- How the selection came about. -/
inductive Told (settings : PanelSettings) (ops : List Op) : Prop where
  /-- Nothing is selected, because no model is known. -/
  | nothing : ((new settings).run ops).legend.Selects [] →
      ((new settings).run ops).store.models.ids = [] → Told settings ops
  /-- The model of the latest click is selected alone. -/
  | alone (id : String) (before : List Op) : IsLatestChange ops before (.toggle id) →
      ((new settings).run ops).legend.Selects [id] → Told settings ops
  /-- The models are selected that were known when the legend was filled last. -/
  | filled (before : List Op) (op : Op) : IsLatestChange ops before op →
      ((new settings).run before).Fills op →
      (((new settings).run before).apply op).store.models.ids ≠ [] →
      ((new settings).run ops).legend.Selects
        (((new settings).run before).apply op).store.models.ids → Told settings ops

/-- An event that fills the legend is the latest change. -/
theorem told_concat_of_fills {settings : PanelSettings} {ops : List Op} {op : Op}
    (h : ((new settings).run ops).Fills op) : Told settings (ops ++ [op]) := by
  have hselects := h.selects
  by_cases hknown : (((new settings).run ops).apply op).store.models.ids = []
  · rw [hknown] at hselects
    refine .nothing ?_ ?_
    · rwa [run_concat]
    · rwa [run_concat]
  · refine .filled ops op (isLatestChange_concat ops op) h hknown ?_
    rwa [run_concat]

/-- Where an event changes nothing, what was told before is still true. -/
theorem Told.concat {settings : PanelSettings} {ops : List Op} (h : Told settings ops) {op : Op}
    (hkeeps : op.keepsLegend = true) (hfills : ¬ ((new settings).run ops).Fills op) :
    Told settings (ops ++ [op]) := by
  have hlegend : ((new settings).run (ops ++ [op])).legend = ((new settings).run ops).legend := by
    rw [run_concat]
    exact legend_apply hkeeps hfills
  cases h with
  | nothing hselects hknown =>
    -- a batch would have filled the legend
    have hmodels : ((new settings).run (ops ++ [op])).store.models =
        ((new settings).run ops).store.models := by
      rw [run_concat]
      cases op with
      | batch points declared => exact absurd hselects hfills
      | toggle _ | dispose => cases hkeeps
      | frame now => exact models_frame _ now
      | error | range _ | mode _ | resize _ => rfl
    refine .nothing ?_ ?_
    · rwa [hlegend]
    · rwa [hmodels]
  | alone id before hlatest hselects =>
    refine .alone id before (hlatest.concat hkeeps) ?_
    rwa [hlegend]
  | filled before op' hlatest hfilled hknown hselects =>
    refine .filled before op' (hlatest.concat hkeeps) hfilled hknown ?_
    rwa [hlegend]

/-- The selection of every run is told by its latest change. -/
theorem told (settings : PanelSettings) (ops : List Op) : Told settings ops := by
  induction ops using List.reverseRecOn with
  | nil => exact .nothing (fun _ => by simp [new, Legend.empty, KeyMap.contains]) rfl
  | append_singleton ops op ih =>
    by_cases hfills : ((new settings).run ops).Fills op
    · exact told_concat_of_fills hfills
    · cases hkeeps : op.keepsLegend with
      | true => exact ih.concat hkeeps hfills
      | false =>
        cases op with
        | toggle id =>
          refine .alone id ops (isLatestChange_concat ops _) ?_
          rw [run_concat]
          show (((new settings).run ops).legend.toggle id _).Selects [id]
          rw [Legend.toggle_of_not_selects hfills]
          exact Legend.selects_only id
        | dispose =>
          refine .nothing ?_ ?_
          · rw [run_concat]
            exact fun _ => by simp [apply, dispose, Legend.empty, KeyMap.contains]
          · rw [run_concat]
            rfl
        | batch _ _ | error | range _ | mode _ | resize _ | frame _ => cases hkeeps

/-! ## Runs -/

/-- The first of the known models stay visible, the later ones hidden. -/
theorem isVisible_of_mem_drop {p : Panel} {k : Nat}
    (h : p.legend.Selects (p.store.models.ids.take k)) (hk : p.store.models.ids.take k ≠ [])
    {model : String} (hmodel : model ∈ p.store.models.ids.drop k) :
    p.legend.isVisible model = false := by
  have hnodup := p.store.models.nodup
  rw [← List.take_append_drop k p.store.models.ids, List.nodup_append] at hnodup
  refine Bool.eq_false_iff.2 fun hvisible => ?_
  rw [h.isVisible_iff hk] at hvisible
  exact hnodup.2.2 model hvisible model hmodel rfl

/-- If every click was on a known model, some known model is visible. -/
theorem exists_isVisible {settings : PanelSettings} {ops : List Op}
    (hclicks : ∀ before id later, ops = before ++ .toggle id :: later →
      id ∈ ((new settings).run before).store.models.ids)
    (hknown : ((new settings).run ops).store.models.ids ≠ []) :
    ∃ model ∈ ((new settings).run ops).store.models.ids,
      ((new settings).run ops).legend.isVisible model = true := by
  cases told settings ops with
  | nothing _ hnone => exact absurd hnone hknown
  | alone id before hlatest hselects =>
    refine ⟨id, (hlatest.prefix_models settings).subset ?_, ?_⟩
    · obtain ⟨later, hops, -⟩ := hlatest
      exact hclicks before id later hops
    · rw [hselects.isVisible_iff (List.cons_ne_nil id [])]
      exact List.mem_cons_self
  | filled before op hlatest _ hfirst hselects =>
    obtain ⟨model, hmodel⟩ := List.exists_mem_of_ne_nil _ hfirst
    exact ⟨model, (hlatest.prefix_models settings).subset hmodel,
      (hselects.isVisible_iff hfirst model).2 hmodel⟩

/-- What the legend selects in any run of a panel, whatever ids are clicked. Once a model is known
something is selected: the model of the latest click alone, or the first known models, those that
were known when the legend was filled, while the later ones stay hidden. Two clicks on a model that
is not selected alone select all known models. If every click was on a model known then, a line is
visible. -/
theorem legend_run (settings : PanelSettings) (ops : List Op) :
    let p := (new settings).run ops
    let known := p.store.models.ids
    (known ≠ [] → p.legend.active.isEmpty = false ∧
      ((∃ id before, IsLatestChange ops before (.toggle id) ∧ p.legend.Selects [id]) ∨
        ∃ before op k, IsLatestChange ops before op ∧ ((new settings).run before).Fills op ∧
          (((new settings).run before).apply op).store.models.ids = known.take k ∧ 1 ≤ k ∧
          p.legend.Selects (known.take k) ∧
          ∀ model ∈ known.drop k, p.legend.isVisible model = false)) ∧
      (∀ id, ¬ p.legend.Selects [id] → ((p.toggle id).toggle id).legend.Selects known) ∧
      ((∀ before id later, ops = before ++ .toggle id :: later →
          id ∈ ((new settings).run before).store.models.ids) →
        known ≠ [] → ∀ rows, ∃ line ∈ (p.seriesFrame rows).lines, line.visible = true) := by
  intro p known
  refine ⟨fun hknown => ?_, fun id hid => ?_, fun hclicks hknown rows => ?_⟩
  · have hnonempty : ∀ {ids : List String}, p.legend.Selects ids → ids ≠ [] →
        p.legend.active.isEmpty = false := fun h hids =>
      Bool.eq_false_iff.2 fun hempty => h.not_nil hids (p.legend.selects_nil_iff.2 hempty)
    cases told settings ops with
    | nothing _ hnone => exact absurd hnone hknown
    | alone id before hlatest hselects =>
      exact ⟨hnonempty hselects (List.cons_ne_nil id []), Or.inl ⟨id, before, hlatest, hselects⟩⟩
    | filled before op hlatest hfills hfirst hselects =>
      have hsome := hnonempty hselects hfirst
      have htake := List.prefix_iff_eq_take.1 (hlatest.prefix_models settings)
      have hpos := List.length_pos_iff.2 hfirst
      rw [htake] at hselects hfirst
      exact ⟨hsome, Or.inr ⟨before, op, _, hlatest, hfills, htake, hpos, hselects,
        fun model => isVisible_of_mem_drop hselects hfirst⟩⟩
  · -- the first click isolates the model, and the second one finds it alone
    show ((p.legend.toggle id p.store.models).toggle id p.store.models).Selects known
    rw [Legend.toggle_of_not_selects hid, Legend.toggle_of_selects (Legend.selects_only id)]
    exact Legend.selects_all p.store.models
  · obtain ⟨model, hmodel, hvisible⟩ := exists_isVisible hclicks hknown
    exact ⟨_, (mem_lines_iff p rows _).2 ⟨model, hmodel, rfl⟩, hvisible⟩

/-- A model that comes after a reset is hidden, and two clicks on another one show it. -/
theorem legend_run_of_late_model :
    let first : Op := .batch [⟨0, .ofList [("a", 1.0)]⟩] ["a", "b"]
    let late : Op := .batch [⟨1, .ofList [("c", 2.0)]⟩] []
    let ops : List Op := [first, .toggle "a", .toggle "a", late]
    let p := (new {}).run ops
    p.store.models.ids = ["a", "b", "c"] ∧ p.legend.active.isEmpty = false ∧
      p.legend.Selects ["a", "b"] ∧ p.legend.isVisible "c" = false ∧
      ((p.toggle "b").toggle "b").legend.Selects ["a", "b", "c"] ∧
      ∀ rows, ∃ line ∈ (p.seriesFrame rows).lines, line.visible = true := by
  intro first late ops p
  obtain ⟨hselected, htwice, hvisible⟩ := legend_run {} ops
  have hknown : p.store.models.ids = ["a", "b", "c"] := by decide +kernel
  have hne : p.store.models.ids ≠ [] := by
    rw [hknown]
    exact List.cons_ne_nil _ _
  have hclicks : ∀ before id later, ops = before ++ .toggle id :: later →
      id ∈ ((new {}).run before).store.models.ids := by
    intro before id later hops
    -- the second and the third event are clicks
    rcases before with _ | ⟨e₀, _ | ⟨e₁, _ | ⟨e₂, _ | ⟨e₃, before⟩⟩⟩⟩
    · simp [ops, first] at hops
    · simp only [ops, List.cons_append, List.nil_append, List.cons.injEq, Op.toggle.injEq] at hops
      obtain ⟨rfl, rfl, -⟩ := hops
      decide +kernel
    · simp only [ops, List.cons_append, List.nil_append, List.cons.injEq, Op.toggle.injEq] at hops
      obtain ⟨rfl, rfl, rfl, -⟩ := hops
      decide +kernel
    · simp [ops, late] at hops
    · simp [ops] at hops
  refine ⟨hknown, (hselected hne).1, by decide +kernel, by decide +kernel, ?_, hvisible hclicks hne⟩
  rw [← hknown]
  exact htwice "b" (by decide +kernel)

end Chart.Panel

end EquityBoard
