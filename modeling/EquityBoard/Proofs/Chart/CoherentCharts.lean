import EquityBoard.Proofs.Chart.PanelRuns
import EquityBoard.Proofs.Series.ViewRows
import Mathlib.Data.List.Induction

/-!
# Coherent charts

The parts of a chart are read from the rows of a view one by one: where each line ends, its newest
value and its texts, the room that the labels take, and the ticks over all values. They agree with
each other (`SeriesFrame.Coherent`), and the lines stand in the order in which their models were seen
first. The room and the ticks are those of the visible lines alone, so that charts with the same
visible values have the same (`rightMargin_seriesFrame`, `valueTicks_seriesFrame`). Main statement:
`coherent_frame_run`.
-/

namespace EquityBoard

/-! ## The newest value and where it stands -/

/-- A new row is the last one for the models that it has a value for. -/
theorem lastIndex?_concat (rows : List Row) (r : Row) (model : String) :
    lastIndex? (rows ++ [r]) model =
      if r.values.contains model then some rows.length else lastIndex? rows model := by
  unfold lastIndex?
  rw [List.reverse_concat, List.findIdx?_cons, List.length_append, List.length_singleton]
  split
  · rfl
  · rw [Option.map_map]
    congr 1
    funext i
    show rows.length + 1 - 1 - (i + 1) = rows.length - 1 - i
    omega

theorem valueAt?_concat (rows : List Row) (r : Row) (model : String) (i : Nat) :
    valueAt? (rows ++ [r]) model i =
      if i = rows.length then r.get? model else valueAt? rows model i := by
  unfold valueAt?
  rcases Nat.lt_trichotomy i rows.length with hlt | rfl | hgt
  · rw [List.getElem?_append_left hlt, if_neg (Nat.ne_of_lt hlt)]
  · rw [List.getElem?_concat_length, if_pos rfl]
    rfl
  · rw [List.getElem?_eq_none (by simp; omega), List.getElem?_eq_none (Nat.le_of_lt hgt),
      if_neg (Nat.ne_of_gt hgt)]

/-- A line ends at the last row that has a value of its model. -/
theorem lastIndex?_eq_some_iff (rows : List Row) (model : String) (i : Nat) :
    lastIndex? rows model = some i ↔
      (valueAt? rows model i).isSome = true ∧ ∀ k, i < k → valueAt? rows model k = none := by
  induction rows using List.reverseRecOn with
  | nil => simp [lastIndex?, valueAt?]
  | append_singleton rows r ih =>
    rw [lastIndex?_concat]
    simp only [valueAt?_concat]
    cases hcontains : r.values.contains model with
    | true =>
      have hr : (r.get? model).isSome = true := hcontains
      rw [if_pos rfl, Option.some.injEq]
      constructor
      · rintro rfl
        refine ⟨by rwa [if_pos rfl], fun k hk => ?_⟩
        rw [if_neg (Nat.ne_of_gt hk)]
        exact valueAt?_of_length_le (Nat.le_of_lt hk) model
      · rintro ⟨hi, hlater⟩
        rcases Nat.lt_trichotomy rows.length i with hlt | heq | hgt
        · rw [if_neg (Nat.ne_of_gt hlt), valueAt?_of_length_le (Nat.le_of_lt hlt)] at hi
          cases hi
        · exact heq
        · have hnone := hlater rows.length hgt
          rw [if_pos rfl] at hnone
          rw [hnone] at hr
          cases hr
    | false =>
      -- the new row does not count
      have hr : r.get? model = none :=
        Option.isNone_iff_eq_none.1 (Option.isSome_eq_false_iff.1 hcontains)
      have hsame : ∀ k, (if k = rows.length then r.get? model else valueAt? rows model k) =
          valueAt? rows model k := by
        intro k
        rw [hr, ite_eq_right_iff]
        rintro rfl
        exact (valueAt?_of_length_le (Nat.le_refl _) model).symm
      simp only [hsame]
      exact ih

/-- The last value is one of a row after which there is none. -/
theorem lastValue?_eq_some_iff (rows : List Row) (model : String) (x : Float) :
    lastValue? rows model = some x ↔
      ∃ i, valueAt? rows model i = some x ∧ ∀ k, i < k → valueAt? rows model k = none :=
  findSome?_reverse_eq_some_iff (fun r : Row => r.get? model) rows x

/-- The newest value is the last of the values in the order of time. -/
theorem lastValue?_eq_getLast? (rows : List Row) (model : String) :
    lastValue? rows model = (rows.filterMap fun r => r.get? model).getLast? := by
  rw [List.getLast?_eq_head?_reverse, ← List.filterMap_reverse, List.head?_filterMap]
  rfl

/-- A line ends where its model has its newest value. -/
theorem lastValue?_of_lastIndex? {rows : List Row} {model : String} {i : Nat}
    (h : lastIndex? rows model = some i) :
    ∃ x, valueAt? rows model i = some x ∧ lastValue? rows model = some x := by
  obtain ⟨hi, hlater⟩ := (lastIndex?_eq_some_iff rows model i).1 h
  obtain ⟨x, hx⟩ := Option.isSome_iff_exists.1 hi
  exact ⟨x, hx, (lastValue?_eq_some_iff rows model x).2 ⟨i, hx, hlater⟩⟩

/-- A model without a last row is one without a last value. -/
theorem lastIndex?_eq_none_iff (rows : List Row) (model : String) :
    lastIndex? rows model = none ↔ lastValue? rows model = none := by
  constructor
  · intro h
    refine Option.eq_none_iff_forall_ne_some.2 fun x hx => ?_
    obtain ⟨i, hi, hlater⟩ := (lastValue?_eq_some_iff rows model x).1 hx
    have hend := (lastIndex?_eq_some_iff rows model i).2 ⟨Option.isSome_of_mem hi, hlater⟩
    rw [h] at hend
    cases hend
  · intro h
    refine Option.eq_none_iff_forall_ne_some.2 fun i hi => ?_
    obtain ⟨x, -, hx⟩ := lastValue?_of_lastIndex? hi
    rw [h] at hx
    cases hx

/-! ## The rows of a view -/

/-- A view shows rows in the order of time. -/
theorem Store.Coherent.ascending_select {s : Store} (h : s.Coherent) (selection : Selection)
    (now : Int) :
    (s.select selection now).2.Pairwise fun a b => a.timestamp < b.timestamp := by
  obtain ⟨range, mode⟩ := selection
  have hpicked := h.ascending.sublist (picked_sublist s.rows s.budget now range)
  cases mode with
  | absolute =>
    rw [h.select_absolute]
    exact hpicked
  | percent =>
    rw [h.select_percent, List.pairwise_map]
    exact hpicked

namespace Chart

/-! ## What coherence is -/

/-- The end of a line describes the newest value of its model in the rows. -/
structure Line.EndsIn (line : Line) (rows : List Row) (mode : Mode) : Prop where
  /-- The line ends at the last row with a value of the model. -/
  endIndex?_eq_some_iff : ∀ i, line.endIndex? = some i ↔
    (valueAt? rows line.model i).isSome = true ∧
      ∀ k, i < k → valueAt? rows line.model k = none
  /-- Its texts are those of the value there. -/
  of_endIndex? : ∀ i, line.endIndex? = some i →
    ∃ x, valueAt? rows line.model i = some x ∧ line.lastValue? = some x ∧
      line.tooltip? = some (tooltipLabel x mode) ∧ line.label = valueLabel (some x) mode
  /-- Without an end there is neither a value nor a text. -/
  endIndex?_eq_none_iff : line.endIndex? = none ↔
    line.lastValue? = none ∧ line.tooltip? = none ∧ line.label = placeholder

/-- The parts of a chart agree with each other and with the known models. -/
structure SeriesFrame.Coherent (chart : SeriesFrame) (known : List String) : Prop where
  two_rows : 2 ≤ chart.rows.length
  ascending : chart.rows.Pairwise fun a b => a.timestamp < b.timestamp
  models_eq : chart.models = known
  lines_eq : chart.lines.map (·.model) = known
  nodup : known.Nodup
  ends : ∀ line ∈ chart.lines, line.EndsIn chart.rows chart.mode
  /-- There is room for the logo. -/
  minRightMargin_le : chart.layout.minRightMargin ≤ chart.rightMargin
  /-- There is room for every visible label. -/
  extent_le : ∀ line ∈ chart.lines, line.visible = true →
    chart.layout.extent line.label ≤ chart.rightMargin
  /-- There is no more room than that. -/
  rightMargin_eq : chart.rightMargin = chart.layout.minRightMargin ∨
    ∃ line ∈ chart.lines, line.visible = true ∧ chart.rightMargin = chart.layout.extent line.label

/-- The visible models of a chart with their values in the order of time. -/
def SeriesFrame.visibleValues (chart : SeriesFrame) : List (String × List Float) :=
  (chart.lines.filter (·.visible)).map fun line =>
    (line.model, chart.rows.filterMap fun r => r.get? line.model)

/-! ## The parts of a chart -/

/-- The line of a model ends where its values in the view end. -/
theorem endsIn_ofView (rows : List Row) (mode : Mode) (visible : Bool) (model : String) :
    (Line.ofView rows mode visible model).EndsIn rows mode where
  endIndex?_eq_some_iff := lastIndex?_eq_some_iff rows model
  of_endIndex? i hi := by
    obtain ⟨x, hx, hlast⟩ := lastValue?_of_lastIndex? hi
    refine ⟨x, hx, hlast, ?_, ?_⟩
    · show (lastValue? rows model).map _ = _
      rw [hlast]
      rfl
    · show valueLabel (lastValue? rows model) mode = _
      rw [hlast]
  endIndex?_eq_none_iff := by
    show lastIndex? rows model = none ↔ lastValue? rows model = none ∧
      (lastValue? rows model).map _ = none ∧ valueLabel (lastValue? rows model) mode = placeholder
    rw [lastIndex?_eq_none_iff]
    refine ⟨fun h => ?_, And.left⟩
    rw [h]
    exact ⟨rfl, rfl, rfl⟩

/-- The room right of the plot is the greatest of the logo's and the labels'. -/
theorem Layout.rightMargin_spec (l : Layout) (labels : List String) :
    l.rightMargin labels ∈ l.minRightMargin :: labels.map l.extent ∧
      ∀ room ∈ l.minRightMargin :: labels.map l.extent, room ≤ l.rightMargin labels :=
  List.max?_eq_some_iff.1 List.max?_cons'

namespace Panel

/-- Every chart of a coherent store is coherent. -/
theorem coherent_seriesFrame {p : Panel} (hstore : p.store.Coherent) {now : Int}
    {chart : SeriesFrame} (h : (p.frame now).2.body = .series chart) :
    chart.Coherent p.store.models.ids := by
  have hascending := hstore.ascending_select p.selection now
  obtain ⟨htwo, rfl⟩ := of_body_frame h
  generalize (p.store.select p.selection now).2 = rows at htwo hascending
  obtain ⟨hmem, hle⟩ := (Layout.forViewport p.viewportWidth).rightMargin_spec
    (((p.seriesFrame rows).lines.filter (·.visible)).map (·.label))
  refine
    { two_rows := htwo
      ascending := hascending
      models_eq := rfl
      lines_eq := ?_
      nodup := p.store.models.nodup
      ends := fun line hline => ?_
      minRightMargin_le := hle _ List.mem_cons_self
      extent_le := fun line hline hvisible => ?_
      rightMargin_eq := ?_ }
  · show (p.store.models.ids.map _).map _ = _
    rw [List.map_map]
    exact List.map_id _
  · obtain ⟨model, _, rfl⟩ := (mem_lines_iff p rows line).1 hline
    exact endsIn_ofView rows p.selection.mode _ model
  · refine hle _ (List.mem_cons_of_mem _ ?_)
    exact List.mem_map_of_mem (List.mem_map_of_mem (List.mem_filter.2 ⟨hline, hvisible⟩))
  · rcases List.mem_cons.1 hmem with hmin | hlabel
    · exact Or.inl hmin
    · simp only [List.mem_map, List.mem_filter] at hlabel
      obtain ⟨_, ⟨line, ⟨hline, hvisible⟩, rfl⟩, hroom⟩ := hlabel
      exact Or.inr ⟨line, hline, hvisible, hroom.symm⟩

/-! ## What the visible lines determine -/

/-- The room right of the plot is told by the newest visible values. -/
theorem rightMargin_seriesFrame (p : Panel) (rows : List Row) :
    let chart := p.seriesFrame rows
    chart.rightMargin = chart.layout.rightMargin
      (chart.visibleValues.map fun e => valueLabel e.2.getLast? chart.mode) := by
  intro chart
  have hlabels : (chart.lines.filter (·.visible)).map (·.label) =
      chart.visibleValues.map fun e => valueLabel e.2.getLast? chart.mode := by
    rw [SeriesFrame.visibleValues, List.map_map]
    refine List.map_congr_left fun line hline => ?_
    obtain ⟨model, _, rfl⟩ := (mem_lines_iff p rows line).1 (List.mem_filter.1 hline).1
    exact congrArg (valueLabel · chart.mode) (lastValue?_eq_getLast? rows model)
  exact congrArg chart.layout.rightMargin hlabels

/-- The ticks are told by all visible values. -/
theorem valueTicks_seriesFrame (p : Panel) (rows : List Row) :
    let chart := p.seriesFrame rows
    chart.axis.valueTicks =
      let (lo, hi) := extremes (reference chart.mode) (chart.visibleValues.flatMap (·.2))
      [lo, reference chart.mode, hi].map fun x => tickLabel x chart.mode := by
  intro chart
  have hvalues : chart.visibleValues.flatMap (·.2) = (chart.lines.filter (·.visible)).flatMap
      fun line => rows.filterMap fun r => r.get? line.model := List.flatMap_map _ _ _
  rw [hvalues]
  rfl

/-- Every chart that is drawn in a run of a panel is coherent: it has two rows or more, in the order
of time; it has a line for each known model, once and in the order in which they were seen first,
behind the models that were known before; every line ends at its model's newest value, with the texts of
that value; and the room right of the plot is what the logo and the visible labels take. Of two
charts of any panels, the room and the ticks of the value axis are the same if the visible lines have
the same values, whatever the hidden ones have. -/
theorem coherent_frame_run (settings : PanelSettings) (ops : List Op) (now : Int)
    (chart : SeriesFrame) :
    let p := (new settings).run ops
    (p.frame now).2.body = .series chart →
      chart.Coherent p.store.models.ids ∧
        (∀ earlier later, ops = earlier ++ later → Op.dispose ∉ later →
          let q := (new settings).run earlier
          chart.models = (q.store.models.ids ++ q.seen later).eraseDups) ∧
        ∀ (settings' : PanelSettings) (ops' : List Op) (now' : Int) (chart' : SeriesFrame),
          (((new settings').run ops').frame now').2.body = .series chart' →
          chart'.mode = chart.mode → chart'.layout = chart.layout →
          chart'.visibleValues = chart.visibleValues →
            chart'.rightMargin = chart.rightMargin ∧
              chart'.axis.valueTicks = chart.axis.valueTicks := by
  intro p hbody
  have hcoherent := coherent_seriesFrame (coherent_store settings ops) hbody
  refine ⟨hcoherent, ?_, ?_⟩
  · intro earlier later hops hdispose
    rw [hcoherent.models_eq, hops, run_append, models_run _ hdispose]
    exact ModelSet.ids_insertAll _ _
  · intro settings' ops' now' chart' hbody' hmode hlayout hvisible
    obtain rfl := eq_seriesFrame hbody
    obtain rfl := eq_seriesFrame hbody'
    constructor
    · rw [rightMargin_seriesFrame, rightMargin_seriesFrame, hmode, hlayout, hvisible]
    · rw [valueTicks_seriesFrame, valueTicks_seriesFrame, hmode, hvisible]

/-- A model that is hidden after a click, with a value that would take more room than all others, and
a line that ends before the newest row. -/
theorem coherent_frame_run_of_hidden :
    let settings : PanelSettings := { selection := ⟨.all, .percent⟩ }
    let first : Op := .batch [⟨0, .ofList [("a", 10.0), ("b", 5.0)]⟩] []
    let second : Op := .batch [⟨1, .ofList [("a", 11.0), ("b", 6.0)]⟩] []
    let second' : Op := .batch [⟨1, .ofList [("a", 11.0), ("b", 6000.0)]⟩] []
    let third : Op := .batch [⟨2, .ofList [("b", 5.0)]⟩] []
    let p := (new settings).run [first, second, third, .toggle "a"]
    let p' := (new settings).run [first, second', third, .toggle "a"]
    ∃ chart chart', (p.frame 2).2.body = .series chart ∧ (p'.frame 2).2.body = .series chart' ∧
      chart.Coherent ["a", "b"] ∧ chart.lines.map (·.endIndex?) = [some 1, some 2] ∧
      chart'.rightMargin = chart.rightMargin ∧ chart'.axis.valueTicks = chart.axis.valueTicks := by
  intro settings first second second' third p p'
  have hbody := body_frame_of_polled (show p.status ≠ .waiting by decide) 2 (by decide +kernel)
  have hbody' := body_frame_of_polled (show p'.status ≠ .waiting by decide) 2 (by decide +kernel)
  have hknown : p.store.models.ids = ["a", "b"] := by decide +kernel
  obtain ⟨hcoherent, -, hsame⟩ :=
    coherent_frame_run settings [first, second, third, .toggle "a"] 2 _ hbody
  have hends : (p.seriesFrame (p.store.select p.selection 2).2).lines.map (·.endIndex?) =
      [some 1, some 2] := by decide +kernel
  have hvisible : (p'.seriesFrame (p'.store.select p'.selection 2).2).visibleValues =
      (p.seriesFrame (p.store.select p.selection 2).2).visibleValues := by decide +kernel
  refine ⟨_, _, hbody, hbody', hknown ▸ hcoherent, hends, ?_⟩
  exact hsame settings [first, second', third, .toggle "a"] 2 _ hbody' (by decide +kernel)
    (by decide +kernel) hvisible

end Panel

end Chart

end EquityBoard
