import EquityBoard.Proofs.Series.PercentView
import EquityBoard.Proofs.Series.Thinning
import Mathlib.Data.List.DropRight

/-!
# Percent epochs

Percent bases are kept as long as all views are in percent of one range. Such a stretch of a run is an
epoch of the range, and the bases are a function of what its views have seen: a model's base is the
one that the earliest view gives for which the model has a base at all (`PercentBases.Reflects`). Main
statement: `base?_select_run`, for every view in percent of every run.
-/

namespace EquityBoard

/-! ## What the views of an epoch have seen -/

namespace PercentBases

/-- The bases for a range are those that its views have given, the earliest view first, where each
view is told by its rows. -/
structure Reflects (b : PercentBases) (range : Range) (views : List (List Row)) : Prop where
  range_eq_iff : b.range? = some range ↔ views ≠ []
  keptFor?_eq : ∀ model,
    b.keptFor? range model = views.findSome? fun rows => freshBase? rows model

theorem keptFor?_of_range_eq {b : PercentBases} {range : Range} (h : b.range? = some range)
    (model : String) : b.keptFor? range model = b.base? model := if_pos h

theorem reflects_nil {b : PercentBases} {range : Range} (h : b.range? ≠ some range) :
    b.Reflects range [] where
  range_eq_iff := ⟨fun heq => absurd heq h, fun hne => absurd rfl hne⟩
  keptFor?_eq _ := if_neg h

/-- After a view every base is one that a view of the epoch has given. -/
theorem Reflects.base?_eq {b : PercentBases} {range : Range} {views : List (List Row)}
    (h : b.Reflects range views) (hne : views ≠ []) (model : String) :
    b.base? model = views.findSome? fun rows => freshBase? rows model := by
  rw [← keptFor?_of_range_eq (h.range_eq_iff.2 hne), h.keptFor?_eq]

/-- A view adds what its rows give to the models that have no base so far. -/
theorem Reflects.ensure {b : PercentBases} {range : Range} {views : List (List Row)}
    (h : b.Reflects range views) {rows : List Row} {models : ModelSet}
    (hknown : ∀ model x, freshBase? rows model = some x → model ∈ models.ids) :
    (b.ensure range rows models).Reflects range (views ++ [rows]) where
  range_eq_iff := ⟨fun _ => by simp, fun _ => rfl⟩
  keptFor?_eq model := by
    rw [keptFor?_of_range_eq rfl, base?_ensure, h.keptFor?_eq, List.findSome?_append,
      List.findSome?_singleton]
    by_cases hmodel : model ∈ models.ids
    · rw [if_pos hmodel]
    · have hnone : freshBase? rows model = none :=
        Option.eq_none_iff_forall_ne_some.2 fun x hx => hmodel (hknown model x hx)
      rw [if_neg hmodel, hnone]

/-- The bases of another range make no difference. -/
theorem ensure_of_range_ne {b : PercentBases} {range : Range} (h : b.range? ≠ some range)
    (rows : List Row) (models : ModelSet) :
    b.ensure range rows models = empty.ensure range rows models := by
  unfold PercentBases.ensure
  rw [if_neg h, if_neg (show empty.range? ≠ some range from nofun)]

end PercentBases

/-- Whether a value can be divided by. -/
def IsDivisor (x : Float) : Prop := x.isFinite = true ∧ (x == 0.0) = false

theorem freshBase?_eq_some {rows : List Row} {model : String} {x : Float}
    (h : freshBase? rows model = some x) :
    (∃ r ∈ rows, r.get? model = some x) ∧ (x == 0.0) = false := by
  unfold freshBase? firstValue? at h
  rw [Option.filter_eq_some_iff, Bool.not_eq_true'] at h
  exact ⟨List.exists_of_findSome?_eq_some h.1, h.2⟩

namespace Store

/-! ## The epoch at the end of a run -/

/-- Whether an operation goes on with a percent epoch of a range: a merge does, and so does a view in
percent of the same range. -/
def Op.continues (range : Range) : Op → Bool
  | .merge _ _ => true
  | .select selection _ => selection = ⟨range, .percent⟩
  | .clear => false

/-- The rows in range at each view of a run, in the order of the views. -/
def viewed (s : Store) : List Op → List (List Row)
  | [] => []
  | .select selection now :: ops =>
    inRange s.rows selection.range now :: (s.apply (.select selection now)).viewed ops
  | op :: ops => (s.apply op).viewed ops

/-- The rows in range at each view of the percent epoch that a run ends with, which is the longest
stretch at its end that goes on with the range. -/
def epochViews (s : Store) (range : Range) (ops : List Op) : List (List Row) :=
  (s.run (ops.rdropWhile (Op.continues range))).viewed (ops.rtakeWhile (Op.continues range))

theorem viewed_append (s : Store) (first later : List Op) :
    s.viewed (first ++ later) = s.viewed first ++ (s.run first).viewed later := by
  induction first generalizing s with
  | nil => rfl
  | cons op first ih =>
    cases op with
    | merge points declared => exact ih (s.apply (.merge points declared))
    | select selection now => exact congrArg _ (ih (s.apply (.select selection now)))
    | clear => exact ih (s.apply .clear)

theorem epochViews_of_continues (s : Store) {range : Range} {op : Op}
    (h : op.continues range = true) (ops : List Op) :
    s.epochViews range (ops ++ [op]) = s.epochViews range ops ++ (s.run ops).viewed [op] := by
  unfold epochViews
  rw [List.rdropWhile_concat_pos _ _ _ h, List.rtakeWhile_concat_pos _ _ _ h, viewed_append,
    ← run_append, List.rdropWhile_append_rtakeWhile]

theorem epochViews_of_ends (s : Store) {range : Range} {op : Op}
    (h : op.continues range = false) (ops : List Op) : s.epochViews range (ops ++ [op]) = [] := by
  unfold epochViews
  rw [List.rtakeWhile_concat_neg _ _ _ (Bool.eq_false_iff.1 h)]
  rfl

/-! ## The bases after a run -/

theorem Coherent.mem_models_of_freshBase? {s : Store} (h : s.Coherent) {range : Range} {now : Int}
    {model : String} {x : Float} (hx : freshBase? (inRange s.rows range now) model = some x) :
    model ∈ s.models.ids := by
  obtain ⟨⟨r, hr, hrx⟩, _⟩ := freshBase?_eq_some hx
  exact h.mem_models ((inRange_sublist s.rows range now).subset hr) hrx

/-- A percent view records its rows: the bases afterwards reflect them after all earlier views of
the epoch. -/
theorem Coherent.reflects_select {s : Store} (h : s.Coherent) {range : Range}
    {views : List (List Row)} (hviews : s.bases.Reflects range views) (now : Int) :
    (s.select ⟨range, .percent⟩ now).1.bases.Reflects range
      (views ++ [inRange s.rows range now]) :=
  hviews.ensure fun _ _ hx => h.mem_models_of_freshBase? hx

/-- An operation that goes on with the epoch adds its view to those that the bases reflect. -/
theorem Coherent.reflects_apply {s : Store} (h : s.Coherent) {range : Range}
    {views : List (List Row)} (hviews : s.bases.Reflects range views) {op : Op}
    (hop : op.continues range = true) :
    (s.apply op).bases.Reflects range (views ++ s.viewed [op]) := by
  cases op with
  | merge points declared =>
    show (s.merge points declared).1.bases.Reflects range (views ++ [])
    rw [bases_merge, List.append_nil]
    exact hviews
  | select selection now =>
    have hselection : selection = ⟨range, .percent⟩ := of_decide_eq_true hop
    subst hselection
    exact h.reflects_select hviews now
  | clear => cases hop

/-- An operation that ends the epoch leaves no base for its range. -/
theorem reflects_apply_of_ends (s : Store) {range : Range} {op : Op}
    (hop : op.continues range = false) : (s.apply op).bases.Reflects range [] := by
  refine PercentBases.reflects_nil ?_
  cases op with
  | merge points declared => cases hop
  | select selection now =>
    obtain ⟨range', mode⟩ := selection
    cases mode with
    | absolute => exact nofun
    | percent =>
      intro hrange
      have hsame : range' = range := Option.some.inj hrange
      exact of_decide_eq_false hop (by rw [hsame])
  | clear => exact nofun

/-- After any run the bases for a range are those that the views of its epoch have given. -/
theorem reflects_run (budget : Nat) (range : Range) (ops : List Op) :
    (run { budget } ops).bases.Reflects range (epochViews { budget } range ops) := by
  -- an epoch is told from the end of the run, so that is where the run grows
  induction ops using List.reverseRecOn with
  | nil => exact PercentBases.reflects_nil nofun
  | append_singleton ops op ih =>
    rw [run_append]
    by_cases hop : op.continues range = true
    · rw [epochViews_of_continues _ hop]
      exact (coherent_run budget ops).reflects_apply ih hop
    · have hends : op.continues range = false := Bool.eq_false_iff.2 hop
      rw [epochViews_of_ends _ hends]
      exact reflects_apply_of_ends _ hends

/-- While the epoch goes on, the bases reflect the views that follow as well. -/
theorem Coherent.reflects_run {s : Store} (h : s.Coherent) {range : Range}
    {views : List (List Row)} (hviews : s.bases.Reflects range views) {later : List Op}
    (hlater : ∀ op ∈ later, op.continues range = true) :
    (s.run later).bases.Reflects range (views ++ s.viewed later) := by
  induction later generalizing s views with
  | nil =>
    rw [viewed, List.append_nil]
    exact hviews
  | cons op later ih =>
    rw [List.forall_mem_cons] at hlater
    have hlast := ih (h.apply op) (h.reflects_apply hviews hlater.1) hlater.2
    rw [List.append_assoc] at hlast
    have hsplit : s.viewed (op :: later) = s.viewed [op] ++ (s.apply op).viewed later :=
      viewed_append s [op] later
    rw [hsplit]
    exact hlast

/-- The bases of another range make no difference to a view in percent. -/
theorem select_percent_of_range_ne {s : Store} {range : Range} (h : s.bases.range? ≠ some range)
    (now : Int) :
    s.select ⟨range, .percent⟩ now =
      { s with bases := .empty }.select ⟨range, .percent⟩ now := by
  simp only [select, selectView, PercentBases.ensure_of_range_ne h]
  rfl

/-! ## Bases as divisors -/

/-- An operation takes no base that cannot be divided by. -/
theorem Coherent.isDivisor_apply {s : Store} (h : s.Coherent)
    (hbases : ∀ model b, s.bases.base? model = some b → IsDivisor b) (op : Op) (model : String)
    (b : Float) (hb : (s.apply op).bases.base? model = some b) : IsDivisor b := by
  cases op with
  | merge points declared =>
    change (s.merge points declared).1.bases.base? model = some b at hb
    rw [bases_merge] at hb
    exact hbases model b hb
  | select selection now =>
    obtain ⟨range, mode⟩ := selection
    cases mode with
    | absolute => cases hb
    | percent =>
      change (s.bases.ensure range (inRange s.rows range now) s.models).base? model = some b at hb
      rw [PercentBases.base?_ensure, Option.or_eq_some_iff] at hb
      rcases hb with hkept | ⟨_, hnew⟩
      · rw [PercentBases.keptFor?, Option.ite_none_right_eq_some] at hkept
        exact hbases model b hkept.2
      · rw [Option.ite_none_right_eq_some] at hnew
        obtain ⟨⟨r, hr, hrb⟩, hzero⟩ := freshBase?_eq_some hnew.2
        exact ⟨h.finite r ((inRange_sublist s.rows range now).subset hr) model b hrb, hzero⟩
  | clear => cases hb

/-- Every base a store ever holds is finite and not zero, so a percent value never divides by zero.
-/
theorem isDivisor_run (budget : Nat) (ops : List Op) (model : String) (b : Float)
    (hb : (run { budget } ops).bases.base? model = some b) : IsDivisor b := by
  have hinduction := run_induction
    (P := fun s => s.Coherent ∧ ∀ model b, s.bases.base? model = some b → IsDivisor b)
    (fun _ op hs => ⟨hs.1.apply op, hs.1.isDivisor_apply hs.2 op⟩)
    ⟨coherent_empty budget, fun _ _ hb => nomatch hb⟩ ops
  exact hinduction.2 model b hb

/-- A value of a view in percent is a stored value against the model's base. -/
theorem eq_toPercent_of_mem_fullView {s : Store} {range : Range} {now : Int} {r : Row}
    (hr : r ∈ s.fullView ⟨range, .percent⟩ now) {model : String} {y : Float}
    (hy : r.get? model = some y) :
    ∃ stored ∈ s.rows, stored.timestamp = r.timestamp ∧ ∃ x b, stored.get? model = some x ∧
      (s.select ⟨range, .percent⟩ now).1.bases.base? model = some b ∧ y = toPercent x b := by
  obtain ⟨stored, hstored, rfl⟩ := List.mem_map.1 hr
  rw [get?_percentRow] at hy
  obtain ⟨x, hx, hpercent⟩ := Option.bind_eq_some_iff.1 hy
  obtain ⟨b, hb, hxb⟩ := Option.map_eq_some_iff.1 hpercent
  exact ⟨stored, (inRange_sublist s.rows range now).subset hstored, rfl, x, b, hx, hb, hxb.symm⟩

/-! ## Every view in percent -/

/-- The bases of a view in percent, in any run. A model's base is the one that the earliest view of
the epoch gives for which the model has a first value in range other than zero. It does not change
while the epoch goes on. The first view of an epoch is the one that an empty set of bases gives. And
no base is zero or not finite, so that every value in percent, thinned out or not, is a stored value
divided by a proper divisor. -/
theorem base?_select_run (budget : Nat) (ops : List Op) (range : Range) (now : Int) :
    let s := run { budget } ops
    let earlier := epochViews { budget } range ops
    let shown := s.select ⟨range, .percent⟩ now
    (∀ model, shown.1.bases.base? model =
        (earlier ++ [inRange s.rows range now]).findSome? fun rows => freshBase? rows model) ∧
      (∀ later, (∀ op ∈ later, op.continues range = true) → ∀ model b,
        shown.1.bases.base? model = some b → (shown.1.run later).bases.base? model = some b) ∧
      (earlier = [] → shown = { s with bases := .empty }.select ⟨range, .percent⟩ now) ∧
      (∀ model b, s.bases.base? model = some b → IsDivisor b) ∧
      ∀ r ∈ s.fullView ⟨range, .percent⟩ now, ∀ model y, r.get? model = some y →
        ∃ stored ∈ s.rows, stored.timestamp = r.timestamp ∧ ∃ x b, stored.get? model = some x ∧
          shown.1.bases.base? model = some b ∧ IsDivisor b ∧ y = toPercent x b := by
  intro s earlier shown
  have hcoherent : s.Coherent := coherent_run budget ops
  have hearlier : s.bases.Reflects range earlier := reflects_run budget range ops
  have hshown : shown.1.bases.Reflects range (earlier ++ [inRange s.rows range now]) :=
    hcoherent.reflects_select hearlier now
  refine ⟨hshown.base?_eq (by simp), ?_, ?_, isDivisor_run budget ops, ?_⟩
  · intro later hlater model b hb
    have hcoherent' : shown.1.Coherent := hcoherent.apply (.select ⟨range, .percent⟩ now)
    have hlast := hcoherent'.reflects_run hshown hlater
    -- the views that follow come after the one that has given the base
    rw [hlast.base?_eq (by simp), List.findSome?_append, ← hshown.base?_eq (by simp), hb,
      Option.some_or]
  · intro hfirst
    exact select_percent_of_range_ne (fun heq => hearlier.range_eq_iff.1 heq hfirst) now
  · intro r hr model y hy
    obtain ⟨stored, hstored, htime, x, b, hx, hb, hxb⟩ := eq_toPercent_of_mem_fullView hr hy
    refine ⟨stored, hstored, htime, x, b, hx, hb, ?_, hxb⟩
    exact hcoherent.isDivisor_apply (isDivisor_run budget ops) (.select ⟨range, .percent⟩ now)
      model b hb

/-- A first value of zero is no base, so a base is taken when the window has left it behind; from then
on the base stays, although the value that it was taken from is overwritten. -/
theorem base?_select_run_of_zero :
    let selection : Selection := ⟨.trailing 1000, .percent⟩
    let zero : Op := .merge [⟨100, .ofList [("a", 0.0)]⟩] []
    let five : Op := .merge [⟨1500, .ofList [("a", 5.0)]⟩] []
    let seven : Op := .merge [⟨1500, .ofList [("a", 7.0)]⟩] []
    let shown := (run {} [zero, .select selection 100, five]).select selection 1500
    (run {} [zero]).select selection 100 =
        { run {} [zero] with bases := .empty }.select selection 100 ∧
      ((run {} [zero]).select selection 100).1.bases.base? "a" = none ∧
      shown.1.bases.base? "a" = some 5.0 ∧
      (shown.1.run [seven, .select selection 1600]).bases.base? "a" = some 5.0 := by
  intro selection zero five seven shown
  have hfirst := base?_select_run defaultBudget [zero] (.trailing 1000) 100
  have hsecond := base?_select_run defaultBudget [zero, .select selection 100, five]
    (.trailing 1000) 1500
  have hbase : shown.1.bases.base? "a" = some 5.0 := (hsecond.1 "a").trans (by decide +kernel)
  refine ⟨hfirst.2.2.1 rfl, (hfirst.1 "a").trans (by decide +kernel), hbase, ?_⟩
  exact hsecond.2.1 [seven, .select selection 1600] (by decide) "a" 5.0 hbase

end Store

end EquityBoard
