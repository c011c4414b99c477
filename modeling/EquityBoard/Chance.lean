/-!
# Chance

A part of a delay is drawn by chance, evenly between two bounds. Which part comes out is left open;
that one comes out, and that it lies between the bounds, is assumed.
-/

namespace EquityBoard

/-- Zero lies between the bounds of every draw. -/
theorem abs_zero_le_of_pos {spread : Float} (h : 0 < spread) : (0 : Float).abs ≤ spread := by
  have habs : (0 : Float).abs = 0 := by decide
  have hlt : ((0 : Float).toModel.unpack.compare spread.toModel.unpack == some .lt) = true :=
    of_decide_eq_true h
  rw [habs]
  refine decide_eq_true (p := (0 : Float).toModel ≤ spread.toModel) ?_
  show Option.any (·.isLE) ((0 : Float).toModel.unpack.compare spread.toModel.unpack) = true
  rw [eq_of_beq hlt]
  rfl

/-- What chance decides: the part of a delay that is drawn after an attempt, by the number of the
attempt and the greatest part that can be drawn, `spread`. Every draw is assumed to give a part; that
bounds whose distance is no finite double cannot be drawn between is left aside. -/
structure Draws where
  draw : (attempt : Nat) → (spread : Float) → Float := fun _ _ => 0
  /-- A draw lies between its bounds, if their distance is finite. -/
  abs_draw_le : ∀ attempt spread, 0 < spread → (spread + spread).isFinite →
    (draw attempt spread).abs ≤ spread := by exact fun _ _ h _ => abs_zero_le_of_pos h

end EquityBoard
