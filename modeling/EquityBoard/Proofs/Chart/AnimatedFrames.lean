import EquityBoard.Proofs.Chart.PanelRuns
import EquityBoard.Proofs.Series.Reports
import Mathlib.Data.List.Induction

/-!
# Animated frames

The switch of the animation is turned off from two places, by a batch that appends rows and by a
frame with lines. It is on exactly as long as no frame had lines and the store has never held more
rows than are animated (`active_run_iff`). An event that turns it off uses it up: what is drawn with
animation and what is left of the switch never add up to more than there was before
(`animated_apply_le`). Main statement: `animates_frame_run`.
-/

namespace EquityBoard.Chart

/-! ## Lines in a body -/

/-- Whether lines are drawn. -/
def Body.hasLines : Body → Bool
  | .series _ => true
  | _ => false

/-- Whether lines are drawn with animation. -/
def Body.animates : Body → Bool
  | .series chart => chart.animate
  | _ => false

namespace Panel

/-! ## The frames of a run -/

/-- The frame that an event draws. -/
def drawn? (p : Panel) : Op → Option Frame
  | .frame now => some (p.frame now).2
  | _ => none

/-- The frames that a run draws. -/
def frames (p : Panel) : List Op → List Frame
  | [] => []
  | op :: ops => (p.drawn? op).toList ++ (p.apply op).frames ops

/-- One more event draws at most one more frame. -/
theorem frames_concat (p : Panel) (ops : List Op) (op : Op) :
    p.frames (ops ++ [op]) = p.frames ops ++ ((p.run ops).drawn? op).toList := by
  induction ops generalizing p with
  | nil => exact List.append_nil _
  | cons first ops ih =>
    rw [List.cons_append, frames, frames, ih, List.append_assoc, run_cons]

/-! ## One event -/

/-- A frame with lines turns the switch off. -/
theorem active_frame (p : Panel) (now : Int) :
    (p.frame now).1.animation.active = (p.animation.active && !(p.frame now).2.body.hasLines) := by
  by_cases hwaiting : p.status = .waiting
  · rw [frame_of_waiting hwaiting]
    exact (Bool.and_true _).symm
  · rw [frame_of_polled hwaiting]
    split
    · exact (Bool.and_true _).symm
    · rename_i hrows
      simp [Animation.rendered, Body.hasLines, Nat.le_of_not_lt hrows]

/-- Lines are drawn with animation as long as the switch is on. -/
theorem animates_frame (p : Panel) (now : Int) :
    (p.frame now).2.body.animates = ((p.frame now).2.body.hasLines && p.animation.active) := by
  by_cases hwaiting : p.status = .waiting
  · rw [frame_of_waiting hwaiting]
    rfl
  · rw [frame_of_polled hwaiting]
    split <;> rfl

/-- A drawing leaves the number of rows as it is. -/
theorem size_frame (p : Panel) (now : Int) : (p.frame now).1.store.size = p.store.size := by
  rcases store_frame p now with h | h
  · rw [h]
  · rw [h]
    rfl

/-- A batch turns the switch off if it makes the store too large. -/
theorem active_takeBatch {p : Panel} (h : p.store.size ≤ mostAnimatedRows) (points : List Point)
    (declared : List String) :
    (p.takeBatch points declared).1.animation.active ↔
      p.animation.active ∧ (p.takeBatch points declared).1.store.size ≤ mostAnimatedRows := by
  have hsize := (p.store.merge_accounts points declared).size
  rw [takeBatch_fst]
  by_cases happended : 0 < (p.store.merge points declared).2.appended
  · simp [happended, Animation.observe]
  · -- a batch without new rows is not looked at, and leaves the store as large as it was
    have hle : (p.store.merge points declared).1.size ≤ mostAnimatedRows := by omega
    simp [happended, hle]

/-- As long as the store is not too large, the switch stays on through an event exactly if it draws
no lines and does not make the store too large. -/
theorem active_apply {p : Panel} (h : p.store.size ≤ mostAnimatedRows) (op : Op) :
    (p.apply op).animation.active ↔
      p.animation.active ∧ (∀ f ∈ p.drawn? op, f.body.hasLines = false) ∧
        (p.apply op).store.size ≤ mostAnimatedRows := by
  have hnothing : ∀ f ∈ (none : Option Frame), f.body.hasLines = false := nofun
  cases op with
  | batch points declared =>
    refine (active_takeBatch h points declared).trans (and_congr_right' ?_)
    exact (and_iff_right hnothing).symm
  | frame now =>
    show (p.frame now).1.animation.active = true ↔ _ ∧ _ ∧ (p.frame now).1.store.size ≤ _
    rw [active_frame, size_frame]
    simp [drawn?, h]
  | dispose =>
    -- the store is empty
    exact (and_iff_left ⟨hnothing, Nat.zero_le _⟩).symm
  | error | range _ | mode _ | toggle _ | resize _ => exact (and_iff_left ⟨hnothing, h⟩).symm

/-- What an event draws with animation and what it leaves of the switch is no more than there was of
the switch. -/
theorem animated_apply_le (p : Panel) (op : Op) :
    (p.drawn? op).toList.countP (·.body.animates) + (p.apply op).animation.active.toNat ≤
      p.animation.active.toNat := by
  cases op with
  | frame now =>
    show [(p.frame now).2].countP (·.body.animates) + (p.frame now).1.animation.active.toNat ≤ _
    rw [List.countP_singleton, active_frame, animates_frame]
    cases p.animation.active <;> cases (p.frame now).2.body.hasLines <;> decide
  | batch points declared =>
    show 0 + (p.takeBatch points declared).1.animation.active.toNat ≤ _
    rw [Nat.zero_add, takeBatch_fst]
    split
    · cases hactive : p.animation.active with
      | true => exact Bool.toNat_le _
      | false => simp [Animation.observe, hactive]
    · exact Nat.le_refl _
  | error | range _ | mode _ | toggle _ | resize _ | dispose => exact Nat.le_of_eq (Nat.zero_add _)

/-- Nothing turns the switch on again. -/
theorem active_of_active_apply {p : Panel} {op : Op} (h : (p.apply op).animation.active) :
    p.animation.active := by
  have hle := p.animated_apply_le op
  rw [h] at hle
  cases hactive : p.animation.active with
  | true => rfl
  | false =>
    rw [hactive, Bool.toNat_true, Bool.toNat_false] at hle
    omega

/-! ## Runs -/

/-- With every animated frame the panel loses the animation that it had to give. -/
theorem animated_frames_le (p : Panel) (ops : List Op) :
    (p.frames ops).countP (·.body.animates) + (p.run ops).animation.active.toNat ≤
      p.animation.active.toNat := by
  induction ops generalizing p with
  | nil => exact Nat.le_of_eq (Nat.zero_add _)
  | cons op ops ih =>
    have hstep := p.animated_apply_le op
    have hrest := ih (p.apply op)
    rw [frames, List.countP_append, run_cons]
    omega

/-- The switch is on exactly if no frame had lines and the store was never too large. -/
theorem active_run_iff (settings : PanelSettings) (ops : List Op) :
    ((new settings).run ops).animation.active ↔
      (∀ f ∈ (new settings).frames ops, f.body.hasLines = false) ∧
        ∀ earlier, earlier <+: ops →
          ((new settings).run earlier).store.size ≤ mostAnimatedRows := by
  induction ops using List.reverseRecOn with
  | nil =>
    refine iff_of_true rfl ⟨nofun, fun earlier h => ?_⟩
    rw [List.prefix_nil.1 h]
    exact Nat.zero_le _
  | append_singleton ops op ih =>
    rw [run_concat, frames_concat]
    simp only [List.mem_append, or_imp, forall_and, List.prefix_concat_iff, forall_eq, run_concat,
      Option.mem_toList]
    constructor
    · intro hactive
      obtain ⟨hframes, hsizes⟩ := ih.1 (active_of_active_apply hactive)
      obtain ⟨-, hframe, hsize⟩ := (active_apply (hsizes ops List.prefix_rfl) op).1 hactive
      exact ⟨⟨hframes, hframe⟩, hsize, hsizes⟩
    · rintro ⟨⟨hframes, hframe⟩, hsize, hsizes⟩
      exact (active_apply (hsizes ops List.prefix_rfl) op).2 ⟨ih.2 ⟨hframes, hsizes⟩, hframe, hsize⟩

/-- A frame of a run is animated exactly if it has lines, no earlier frame of the run had lines, and
the store has never held more rows than are animated. So of all frames of a run at most one is
animated, whatever was dropped in between, and once the switch is off it stays off. -/
theorem animates_frame_run (settings : PanelSettings) (ops : List Op) (now : Int) :
    let p := (new settings).run ops
    ((p.frame now).2.body.animates ↔
        (p.frame now).2.body.hasLines ∧
          (∀ f ∈ (new settings).frames ops, f.body.hasLines = false) ∧
            ∀ earlier, earlier <+: ops →
              ((new settings).run earlier).store.size ≤ mostAnimatedRows) ∧
      ((new settings).frames ops).countP (·.body.animates) ≤ 1 ∧
      (p.animation.active = false →
        ∀ later, ((new settings).run (ops ++ later)).animation.active = false) := by
  intro p
  refine ⟨?_, ?_, fun hoff later => ?_⟩
  · rw [animates_frame, Bool.and_eq_true, active_run_iff]
  · exact Nat.le_of_add_right_le ((new settings).animated_frames_le ops)
  · have hle := p.animated_frames_le later
    rw [hoff] at hle
    rw [run_append]
    exact Bool.toNat_eq_zero.1 (Nat.eq_zero_of_le_zero (Nat.le_of_add_left_le hle))

/-- A chart that is dropped after its first frame comes back without animation. -/
theorem animates_frame_run_of_dispose :
    let one : Op := .batch [⟨0, .ofList [("a", 1.0)]⟩] []
    let two : Op := .batch [⟨1, .ofList [("a", 2.0)]⟩] []
    let ops : List Op := [one, .frame 0, two, .frame 1, .dispose, one, two]
    let p := (new {}).run ops
    ((new {}).frames ops).map (·.body.animates) = [false, true] ∧
      (p.frame 1).2.body.hasLines ∧ ¬ (p.frame 1).2.body.animates ∧
      p.animation.active = false ∧
      ∀ later, ((new {}).run (ops ++ later)).animation.active = false := by
  intro one two ops p
  obtain ⟨hanimates, -, hoff⟩ := animates_frame_run {} ops 1
  have hframes : ((new {}).frames ops).map (·.body.animates) = [false, true] := by decide +kernel
  have hactive : p.animation.active = false := by decide +kernel
  refine ⟨hframes, by decide +kernel, fun hanimated => ?_, hactive, hoff hactive⟩
  -- the second frame had lines already
  obtain ⟨-, hnone, -⟩ := hanimates.1 hanimated
  exact absurd hnone (by decide +kernel)

end Panel

end EquityBoard.Chart
