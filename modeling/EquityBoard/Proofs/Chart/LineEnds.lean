import EquityBoard.Proofs.Chart.PanelRuns
import EquityBoard.Proofs.Series.Thinning

/-!
# Labels at the ends of lines

The label at the end of a line is read from the rows that are left after thinning. Thinning keeps
the newest row of the view, but the newest row with a value of a model may be another one, and be
lost. Main statement: a line of a trailing window ends at its model's newest value exactly if that
value is kept or an equal one takes its place (`lastValue?_line_run_iff`). A model that is missing
from the newest row can lose its label (`lastValue?_line_lost`).
-/

namespace EquityBoard.Chart.Panel

/-- In any run of a panel, when it draws lines over a trailing window, every model with a value in
the view before thinning has its line, and the line ends at the model's newest value `x` exactly if
thinning leaves the model that value. -/
theorem lastValue?_line_run_iff (settings : PanelSettings) (ops : List Op) (now window : Int)
    (chart : SeriesFrame) (model : String) (j : Nat) (x : Float) :
    let p := (new settings).run ops
    let view := p.store.fullView p.selection now
    p.selection.range = .trailing window → (p.frame now).2.body = .series chart →
    valueAt? view model j = some x → (∀ k, j < k → valueAt? view model k = none) →
      (∃ line ∈ chart.lines, line.model = model) ∧
        ∀ line ∈ chart.lines, line.model = model →
          (line.lastValue? = some x ↔ KeepsValue view settings.budget model j x) := by
  intro p view hrange hbody hj hnewest
  -- the lines are read from the thinned view
  have hchart : chart = p.seriesFrame (p.store.select p.selection now).2 := eq_seriesFrame hbody
  have hrows : (p.store.select p.selection now).2 = downsample view settings.budget := by
    rw [Store.select_snd, hrange, budget_store]
    rfl
  rw [hrows] at hchart
  subst hchart
  constructor
  · have hknown := (coherent_store settings ops).mem_models_of_valueAt? hj
    exact ⟨_, (mem_lines_iff p _ _).2 ⟨model, hknown, rfl⟩, rfl⟩
  · intro line hline hmodel
    obtain ⟨id, _, rfl⟩ := (mem_lines_iff p _ _).1 hline
    have hid : id = model := hmodel
    subst hid
    exact lastValue?_downsample_iff hj hnewest settings.budget

/-- The newest row lacks the model, but the one before it is kept. -/
theorem lastValue?_line_of_kept :
    let settings : PanelSettings := { budget := 2, selection := ⟨.trailing 1000, .absolute⟩ }
    let a : KeyMap Float := .ofList [("a", 1.0)]
    let both : KeyMap Float := .ofList [("a", 1.0), ("b", 7.0)]
    let ops : List Op :=
      [.batch [⟨0, a⟩] [], .batch [⟨1, a⟩] [], .batch [⟨2, both⟩] [], .batch [⟨3, a⟩] []]
    let p := (new settings).run ops
    ∃ chart, (p.frame 3).2.body = .series chart ∧
      (∃ line ∈ chart.lines, line.model = "b") ∧
        ∀ line ∈ chart.lines, line.model = "b" → line.lastValue? = some 7.0 := by
  intro settings a both ops p
  have hpolled : p.status ≠ .waiting := by decide
  have hbody := body_frame_of_polled hpolled 3 (by decide +kernel)
  have hnewest : ∀ k, 2 < k → valueAt? (p.store.fullView p.selection 3) "b" k = none := by
    -- row 3 has no value of the model, and there is no row after it
    intro k hk
    by_cases hlast : k = 3
    · subst hlast
      decide +kernel
    · refine valueAt?_of_length_le (Nat.le_trans ?_ (show 4 ≤ k by omega)) "b"
      decide +kernel
  have hends := lastValue?_line_run_iff settings ops 3 1000 _ "b" 2 7.0 rfl hbody
    (by decide +kernel) hnewest
  refine ⟨_, hbody, hends.1, fun line hline hmodel => (hends.2 line hline hmodel).2 ?_⟩
  exact Or.inl (by decide +kernel)

/-- The only row with a value of the model is thinned out, and its visible line has no label. -/
theorem lastValue?_line_lost :
    let settings : PanelSettings := { budget := 2, selection := ⟨.trailing 1000, .absolute⟩ }
    let a : KeyMap Float := .ofList [("a", 1.0)]
    let both : KeyMap Float := .ofList [("a", 1.0), ("b", 7.0)]
    let ops : List Op :=
      [.batch [⟨0, a⟩] ["a", "b"], .batch [⟨1, both⟩] [], .batch [⟨2, a⟩] [], .batch [⟨3, a⟩] []]
    let p := (new settings).run ops
    lastValue? (p.store.fullView p.selection 3) "b" = some 7.0 ∧
      ∃ chart, (p.frame 3).2.body = .series chart ∧
        ∃ line ∈ chart.lines, line.model = "b" ∧ line.visible = true ∧ line.lastValue? = none := by
  intro settings a both ops p
  have hpolled : p.status ≠ .waiting := by decide
  have hbody := body_frame_of_polled hpolled 3 (by decide +kernel)
  have hknown : "b" ∈ p.store.models.ids := by decide +kernel
  refine ⟨by decide +kernel, _, hbody, _, (mem_lines_iff p _ _).2 ⟨"b", hknown, rfl⟩, rfl, ?_, ?_⟩
  · show p.legend.isVisible "b" = true
    decide +kernel
  · show lastValue? (p.store.select p.selection 3).2 "b" = none
    decide +kernel

end EquityBoard.Chart.Panel
