/-!
# What a library exports

The declaration that a compiled library holds: the interface that it was compiled against, in two
parts, and the builder that it makes, by name.
-/

namespace CompositionGen

/-- The declaration in a compiled library. -/
structure LibraryExport where
  abiVersion : Nat
  buildVersion : String
  builder : String
  deriving DecidableEq, Inhabited, Repr

end CompositionGen
