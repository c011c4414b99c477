import EquityBoard.Series.ModelSet
import EquityBoard.KeyMap

/-!
# The legend

The legend selects the models whose lines are drawn. As long as nothing is selected every model is
visible. A click selects one model alone, and a second click on it selects all known models again.
-/

namespace EquityBoard

/-- The selected models. -/
structure Legend where
  active : KeySet

namespace Legend

/-- The legend with nothing selected. -/
def empty : Legend := ⟨.empty⟩

instance : Inhabited Legend := ⟨empty⟩

/-- Selects every known model. -/
def all (models : ModelSet) : Legend := ⟨KeySet.ofList models.ids⟩

/-- Selects one model alone. -/
def only (id : String) : Legend := ⟨KeySet.ofList [id]⟩

/-- Selects every known model if nothing is selected. -/
def seed (l : Legend) (models : ModelSet) : Legend := if l.active.isEmpty then all models else l

/-- A click on a model. -/
def toggle (l : Legend) (id : String) (models : ModelSet) : Legend :=
  if l.active.size = 1 ∧ l.active.contains id then all models else only id

/-- Whether the line of a model is drawn. -/
def isVisible (l : Legend) (id : String) : Bool := l.active.isEmpty || l.active.contains id

end Legend

end EquityBoard
