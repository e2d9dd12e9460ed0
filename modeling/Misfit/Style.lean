/-! How causes are laid out. -/

namespace Misfit

/-- The layout of a cause; it decides how a cause reads and never whether there is one. -/
structure Style where
  /-- The number of characters to which the text of a value is cut. -/
  excerptLimit : Nat := 96
  /-- What each level of bullets adds to the indent. -/
  bulletIndent : String := "  "
deriving DecidableEq

end Misfit
