import EquityBoard.Proofs.Chart.AnimatedFrames
import EquityBoard.Proofs.Series.PercentView

/-!
# Repeated frames

To draw is to change the panel: a frame fills the percent bases and uses up the animation. It does
so once. The bases that a view takes are all that its rows have to give, so the same view takes no
more of them (`PercentBases.ensure_ensure`), and the first frame with lines uses up the animation.
So a panel that is drawn again at the same time shows the same and stays as it is. Main statement:
`frame_again`.
-/

namespace EquityBoard

/-! ## Repeated views -/

/-- A model that is without a base afterwards has none to take. -/
theorem PercentBases.ensure_ensure (b : PercentBases) (range : Range) (rows : List Row)
    (models : ModelSet) :
    (b.ensure range rows models).ensure range rows models = b.ensure range rows models := by
  have hbases : ((b.ensure range rows models).ensure range rows models).bases =
      (b.ensure range rows models).bases := by
    apply KeyMap.ext_get?
    intro model
    show ((b.ensure range rows models).ensure range rows models).base? model =
      (b.ensure range rows models).base? model
    have hkept : (b.ensure range rows models).keptFor? range model =
        (b.ensure range rows models).base? model := if_pos rfl
    rw [base?_ensure, hkept, base?_ensure, Option.or_assoc, Option.or_self]
  exact congrArg (PercentBases.mk (some range)) hbases

/-- A view of the same rows shows the same, and the bases stay. -/
theorem Store.select_again (s : Store) (selection : Selection) (now : Int) :
    (s.select selection now).1.select selection now = s.select selection now := by
  obtain ⟨range, mode⟩ := selection
  cases mode with
  | absolute => rfl
  | percent =>
    -- which rows are in range does not depend on the bases, so both views take theirs from the same
    let filtered := inRange s.rows range now
    have hbases : (s.bases.ensure range filtered s.models).ensure range filtered s.models =
        s.bases.ensure range filtered s.models := s.bases.ensure_ensure range filtered s.models
    show ({ s with bases := s.bases.ensure range filtered s.models } : Store).select _ now = _
    simp only [select, selectView, rows, filtered] at hbases ⊢
    rw [hbases]

namespace Chart

namespace Panel

/-! ## Repeated frames -/

/-- To draw lines uses the animation up, whether it was used up or not. -/
theorem rendered_of_lines {rows : Nat} (h : ¬ rows < 2) (a : Animation) :
    a.rendered rows = ⟨false⟩ := by
  simp [Animation.rendered, Nat.le_of_not_lt h]

/-- With fewer than two rows a frame is empty, and the animation is kept. -/
theorem frame_of_few {p : Panel} {now : Int} {store : Store} {rows : List Row}
    (hpolled : p.status ≠ .waiting) (hview : p.store.select p.selection now = (store, rows))
    (hrows : rows.length < 2) :
    p.frame now = ({ p with store }, ⟨p.banner?, .empty p.emptyFrame⟩) := by
  rw [frame_of_polled hpolled, hview, if_pos hrows]

/-- With two rows a frame has lines, and the animation is used up. -/
theorem frame_of_lines {p : Panel} {now : Int} {store : Store} {rows : List Row}
    (hpolled : p.status ≠ .waiting) (hview : p.store.select p.selection now = (store, rows))
    (hrows : ¬ rows.length < 2) :
    p.frame now = ({ p with store, animation := ⟨false⟩ },
      ⟨p.banner?, .series (p.seriesFrame rows)⟩) := by
  rw [frame_of_polled hpolled, hview, if_neg hrows, rendered_of_lines hrows]

/-- The frame after a frame is the same, without animation, and the panel stays as it is. -/
theorem frame_frame (p : Panel) (now : Int) :
    (p.frame now).1.frame now = ((p.frame now).1, (p.frame now).2.still) := by
  by_cases hwaiting : p.status = .waiting
  · rw [frame_of_waiting hwaiting, frame_of_waiting hwaiting]
    rfl
  · rcases hview : p.store.select p.selection now with ⟨store, rows⟩
    have hagain : store.select p.selection now = (store, rows) := by
      have hsame := p.store.select_again p.selection now
      rwa [hview] at hsame
    have hmodels : p.store.models = store.models := congrArg (·.1.models) hview
    -- the second view is the first again, so both frames have bodies of one kind
    by_cases hrows : rows.length < 2
    · rw [frame_of_few hwaiting hview hrows]
      exact frame_of_few hwaiting hagain hrows
    · rw [frame_of_lines hwaiting hview hrows]
      -- the panel differs from the first one in the bases, which no chart reads, and the switch
      let later : Panel := { p with store, animation := ⟨false⟩ }
      refine (frame_of_lines (p := later) hwaiting hagain hrows).trans ?_
      simp only [seriesFrame, Frame.still, Body.still, hmodels]
      rfl

/-- The frames of a panel that is drawn again and again are those of the panel after the first. -/
theorem frames_replicate (p : Panel) (now : Int) (n : Nat) :
    (p.frame now).1.run (.replicate n (.frame now)) = (p.frame now).1 ∧
      (p.frame now).1.frames (.replicate n (.frame now)) =
        .replicate n (p.frame now).2.still := by
  induction n with
  | zero => exact ⟨rfl, rfl⟩
  | succ n ih =>
    have hpanel : (p.frame now).1.apply (.frame now) = (p.frame now).1 := by
      rw [apply, frame_frame]
    have hframe : (p.frame now).1.drawn? (.frame now) = some (p.frame now).2.still := by
      rw [drawn?, frame_frame]
    rw [List.replicate_succ, run_cons, frames, hpanel, hframe, ih.1, ih.2]
    exact ⟨rfl, rfl⟩

/-- A panel that is drawn a second time at the same time stays as it is, all its parts included, and
shows the same frame, with lines that are no longer animated. So it is with every further time. -/
theorem frame_again (p : Panel) (now : Int) :
    let first := p.frame now
    let again := first.1.frame now
    again.1 = first.1 ∧ again.2 = first.2.still ∧
      ∀ n, p.run (.replicate (n + 1) (.frame now)) = first.1 ∧
        p.frames (.replicate (n + 1) (.frame now)) =
          first.2 :: .replicate n first.2.still := by
  intro first again
  obtain ⟨hpanel, hframe⟩ := Prod.ext_iff.1 (p.frame_frame now)
  refine ⟨hpanel, hframe, fun n => ?_⟩
  obtain ⟨hrun, hframes⟩ := p.frames_replicate now n
  exact ⟨hrun, congrArg (first.2 :: ·) hframes⟩

end Panel

end Chart

end EquityBoard
