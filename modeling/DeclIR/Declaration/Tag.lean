import DeclIR.Source.Provenance

/-!
# Annotations

The annotations of a type, field or method, such as `@Deprecated`, form a list that is never changed
in place: it is kept or exchanged as a whole.
-/

namespace DeclIR

/-- One annotation. -/
structure Tag where
  info : Provenance
  name : String
deriving DecidableEq, Repr

/-- An annotation is written with its sign. -/
def Tag.text (t : Tag) : String := "@" ++ t.name

end DeclIR
