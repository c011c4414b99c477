import EquityBoard.Proofs.Series.Coherence

/-!
# Views in percent

A view in percent shows every value against its model's base. `base?_ensure` says which base that
is: the one that was kept, or else the first value in range, unless it is zero. A kept base may
outlive the value it was taken from, because a later batch can be laid over the newest row. So a view
of all rows need not be the one that an empty set of bases gives (`select_ne_select_empty`); it is as
long as no merge touches the values that bases were taken from (`IsCurrent.select_all_percent`).
-/

namespace EquityBoard

/-- The base that rows give to a model: its first value, unless that is zero. -/
def freshBase? (rows : List Row) (model : String) : Option Float :=
  (firstValue? rows model).filter fun x => !(x == 0.0)

/-- The row with its values in percent of the given bases; models without a base are left out. -/
def percentAgainst (base? : String → Option Float) (r : Row) : Row :=
  ⟨r.timestamp, r.values.filterMap fun model x => (base? model).map (toPercent x)⟩

theorem percentAgainst_congr {b b' : String → Option Float} {r : Row}
    (h : ∀ model x, r.get? model = some x → b model = b' model) :
    percentAgainst b r = percentAgainst b' r := by
  unfold percentAgainst
  congr 1
  apply KeyMap.ext_get?
  intro model
  rw [KeyMap.get?_filterMap, KeyMap.get?_filterMap]
  cases hx : r.values.get? model with
  | none => rfl
  | some x => rw [Option.bind_some, Option.bind_some, h model x hx]

namespace PercentBases

/-! ## Which bases are taken -/

theorem get?_seed (rows : List Row) (bases : KeyMap Float) (id model : String) :
    (seed rows bases id).get? model =
      (bases.get? model).or (if model = id then freshBase? rows id else none) := by
  unfold seed freshBase?
  by_cases hknown : bases.contains id = true
  · rw [if_pos hknown]
    by_cases hid : model = id
    · -- a base is never replaced
      subst hid
      obtain ⟨x, hx⟩ := Option.isSome_iff_exists.1 hknown
      rw [hx, Option.some_or]
    · rw [if_neg hid, Option.or_none]
  · rw [if_neg hknown]
    have hnone : bases.get? id = none := by
      simpa [KeyMap.contains] using hknown
    cases firstValue? rows id with
    | none => simp
    | some first =>
      simp only [Option.filter_some]
      cases hzero : first == 0.0 with
      | false =>
        by_cases hid : model = id
        · subst hid
          simp [hnone]
        · simp [hid]
      | true => simp

theorem get?_foldl_seed (rows : List Row) (bases : KeyMap Float) (ids : List String)
    (model : String) :
    (ids.foldl (seed rows) bases).get? model =
      (bases.get? model).or (if model ∈ ids then freshBase? rows model else none) := by
  induction ids generalizing bases with
  | nil => simp
  | cons id ids ih =>
    rw [List.foldl_cons, ih, get?_seed, Option.or_assoc]
    by_cases hid : model = id
    · subst hid
      rw [if_pos rfl, if_pos List.mem_cons_self]
      cases freshBase? rows model with
      | none => simp
      | some x => rw [Option.some_or]
    · rw [if_neg hid, Option.none_or]
      simp only [List.mem_cons, hid, false_or]

/-- The base that is kept for a range, if there is one. -/
def keptFor? (b : PercentBases) (range : Range) (model : String) : Option Float :=
  if b.range? = some range then b.base? model else none

/-- A base that is kept for the range stays; a known model without one takes it from the rows. -/
theorem base?_ensure (b : PercentBases) (range : Range) (rows : List Row) (models : ModelSet)
    (model : String) :
    (b.ensure range rows models).base? model =
      (b.keptFor? range model).or
        (if model ∈ models.ids then freshBase? rows model else none) := by
  show (models.ids.foldl (seed rows) _).get? model = _
  rw [get?_foldl_seed]
  unfold keptFor?
  split <;> rfl

end PercentBases

namespace Store

/-! ## The view of all rows -/

/-- The selection of all rows in percent. -/
abbrev allPercent : Selection := ⟨.all, .percent⟩

/-- Every value is shown against the base that is kept for all rows, or else against the model's
first value. -/
theorem Coherent.select_all_percent {s : Store} (h : s.Coherent) (now : Int) :
    (s.select allPercent now).2 =
      s.rows.map (percentAgainst fun model =>
        (s.bases.keptFor? .all model).or (freshBase? s.rows model)) := by
  show s.rows.map (percentAgainst (s.bases.ensure .all s.rows s.models).base?) = _
  refine List.map_congr_left fun r hr => percentAgainst_congr fun model x hx => ?_
  rw [PercentBases.base?_ensure, if_pos (h.mem_models hr hx)]

/-- With no bases kept the view of all rows depends on the rows alone. -/
theorem Coherent.select_all_percent_of_empty {s : Store} (h : s.Coherent) (now : Int) :
    ({ s with bases := .empty }.select allPercent now).2 =
      s.rows.map (percentAgainst (freshBase? s.rows)) := by
  have hcoherent : Coherent { s with bases := .empty } :=
    ⟨h.ascending, h.cursor, h.finite, h.known, h.nodup⟩
  rw [hcoherent.select_all_percent]
  refine List.map_congr_left fun r _ => percentAgainst_congr fun model x _ => ?_
  exact Option.none_or

/-! ## Bases that are still first values -/

/-- Every base that is kept for all rows is what the rows would give the model now. -/
def IsCurrent (s : Store) : Prop :=
  ∀ model x, s.bases.keptFor? .all model = some x → freshBase? s.rows model = some x

/-- No merge changes the first value of a model while a base for all rows is kept for it. -/
def Spares (s : Store) : Op → Prop
  | .merge points declared => s.bases.range? = some .all → ∀ model ∈ s.bases.bases.keys,
      firstValue? (s.merge points declared).1.rows model = firstValue? s.rows model
  | .select _ _ => True
  | .clear => True

/-- Every operation of a run spares the bases. -/
def SparesAll (s : Store) : List Op → Prop
  | [] => True
  | op :: ops => s.Spares op ∧ (s.apply op).SparesAll ops

instance (s : Store) : (op : Op) → Decidable (s.Spares op)
  | .merge points declared =>
    inferInstanceAs (Decidable (s.bases.range? = some .all → ∀ model ∈ s.bases.bases.keys,
      firstValue? (s.merge points declared).1.rows model = firstValue? s.rows model))
  | .select _ _ => isTrue trivial
  | .clear => isTrue trivial

instance decidableSparesAll (s : Store) : (ops : List Op) → Decidable (s.SparesAll ops)
  | [] => isTrue trivial
  | op :: ops =>
    have := decidableSparesAll (s.apply op) ops
    inferInstanceAs (Decidable (s.Spares op ∧ (s.apply op).SparesAll ops))

/-- A merge that spares the first values leaves every kept base a first value still. -/
theorem IsCurrent.merge {s : Store} (h : s.IsCurrent) {points : List Point}
    {declared : List String} (hspares : s.Spares (.merge points declared)) :
    (s.merge points declared).1.IsCurrent := by
  intro model x hx
  rw [bases_merge] at hx
  have hfresh := h model x hx
  unfold PercentBases.keptFor? at hx
  split at hx
  · rename_i hrange
    have hmem := (KeyMap.mem_keys_iff s.bases.bases model).2 ⟨x, hx⟩
    unfold freshBase? at hfresh ⊢
    rw [hspares hrange model hmem]
    exact hfresh
  · cases hx

/-- The bases that a view adds are first values, and those that it keeps are so still. -/
theorem IsCurrent.select {s : Store} (h : s.IsCurrent) (selection : Selection) (now : Int) :
    (s.select selection now).1.IsCurrent := by
  intro model x hx
  obtain ⟨range, mode⟩ := selection
  cases mode with
  | absolute => cases hx
  | percent =>
    cases range with
    | trailing window => cases hx
    | all =>
      change (s.bases.ensure .all s.rows s.models).base? model = some x at hx
      rw [PercentBases.base?_ensure, Option.or_eq_some_iff] at hx
      rcases hx with hkept | ⟨_, hnew⟩
      · exact h model x hkept
      · split at hnew
        · exact hnew
        · cases hnew

theorem IsCurrent.apply {s : Store} (h : s.IsCurrent) {op : Op} (hop : s.Spares op) :
    (s.apply op).IsCurrent := by
  cases op with
  | merge points declared => exact h.merge hop
  | select selection now => exact h.select selection now
  | clear =>
    intro model x hx
    cases hx

theorem IsCurrent.run {s : Store} (h : s.IsCurrent) {ops : List Op} (hops : s.SparesAll ops) :
    (s.run ops).IsCurrent := by
  induction ops generalizing s with
  | nil => exact h
  | cons op ops ih => exact ih (h.apply hops.1) hops.2

theorem isCurrent_of_range_ne {s : Store} (h : s.bases.range? ≠ some .all) : s.IsCurrent := by
  intro model x hx
  rw [PercentBases.keptFor?, if_neg h] at hx
  cases hx

theorem IsCurrent.select_all_percent {s : Store} (hcurrent : s.IsCurrent) (h : s.Coherent)
    (now : Int) :
    (s.select allPercent now).2 = ({ s with bases := .empty }.select allPercent now).2 := by
  rw [h.select_all_percent, h.select_all_percent_of_empty]
  refine List.map_congr_left fun r _ => percentAgainst_congr fun model x _ => ?_
  cases hkept : s.bases.keptFor? .all model with
  | none => exact Option.none_or
  | some b => rw [Option.some_or, hcurrent model b hkept]

/-- What a view of all rows in percent shows in any store of a run. With no bases kept it depends on
the rows alone; kept bases count before first values; and if since the bases for all rows were last
dropped every merge spared them, the kept bases make no difference. -/
theorem select_all_percent_run (budget : Nat) (before since : List Op) (now : Int) :
    let start := run { budget } before
    let s := run { budget } (before ++ since)
    ({ s with bases := .empty }.select allPercent now).2 =
        s.rows.map (percentAgainst (freshBase? s.rows)) ∧
      (s.select allPercent now).2 =
        s.rows.map (percentAgainst fun model =>
          (s.bases.keptFor? .all model).or (freshBase? s.rows model)) ∧
      (start.bases.range? ≠ some .all → start.SparesAll since →
        (s.select allPercent now).2 = ({ s with bases := .empty }.select allPercent now).2) := by
  intro start s
  have hcoherent : s.Coherent := coherent_run budget (before ++ since)
  refine ⟨hcoherent.select_all_percent_of_empty now, hcoherent.select_all_percent now, ?_⟩
  intro hrange hspares
  have hcurrent : (start.run since).IsCurrent := (isCurrent_of_range_ne hrange).run hspares
  rw [← run_append] at hcurrent
  exact hcurrent.select_all_percent hcoherent now

/-- A point laid over the newest row spares the base of another model, and so do newer points. -/
theorem select_all_percent_run_of_tie :
    let first : Op := .merge [⟨100, .ofList [("a", 10.0)]⟩] []
    let tie : Op := .merge [⟨100, .ofList [("b", 5.0)]⟩] []
    let newer : Op := .merge [⟨200, .ofList [("a", 20.0)]⟩] []
    let since := [first, .select allPercent 100, tie, newer]
    let s := run {} ([] ++ since)
    (run {} []).bases.range? ≠ some .all ∧ (run {} []).SparesAll since ∧
      (s.select allPercent 200).2 = ({ s with bases := .empty }.select allPercent 200).2 ∧
      (s.select allPercent 200).2.map (fun r : Row => r.get? "a") = [some 0.0, some 100.0] := by
  have hrange : (run {} []).bases.range? ≠ some .all := by decide
  refine ⟨hrange, by decide +kernel, ?_, by decide +kernel⟩
  exact (select_all_percent_run defaultBudget [] _ 200).2.2 hrange (by decide +kernel)

/-- A base stays when the value it was taken from is overwritten: the model is shown at 100 % where
the rows alone give 0 %. -/
theorem select_ne_select_empty :
    let first : Op := .merge [⟨100, .ofList [("a", 10.0)]⟩] []
    let tie : Op := .merge [⟨100, .ofList [("a", 20.0)]⟩] []
    let s := run {} [first, .select allPercent 100, tie]
    (s.select allPercent 100).2 ≠ ({ s with bases := .empty }.select allPercent 100).2 := by
  intro first tie s heq
  have hkept : (s.select allPercent 100).2.map (fun r : Row => r.get? "a") = [some 100.0] := by
    decide +kernel
  have hfresh : ({ s with bases := .empty }.select allPercent 100).2.map (fun r : Row => r.get? "a")
      = [some 0.0] := by
    decide +kernel
  rw [heq, hfresh] at hkept
  exact absurd hkept (by decide +kernel)

end Store

end EquityBoard
