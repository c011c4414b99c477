import EquityBoard.KeyMap

/-!
# The environment

The variables that a program is started with.
-/

namespace EquityBoard

/-- The values of the variables that are set. -/
abbrev Environment := KeyMap String

end EquityBoard
