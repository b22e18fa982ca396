import DeclIR.Declaration.DeclaredType

/-!
# Passes

A pass transforms one declared type at a time and says whether it changed anything.  A pass that
fails leaves the type as far as it got.
-/

namespace DeclIR

/-- A transformation of declared types that can fail with an `ε`. -/
structure Pass (ε : Type) where
  name : String
  /-- Transforms the type that is the state, and returns whether it was changed. -/
  run : EStateM ε DeclaredType Bool

/-- The same pass with failures of another kind. -/
def Pass.mapError {ε ε' : Type} (p : Pass ε) (f : ε → ε') : Pass ε' where
  name := p.name
  run := p.run.adaptExcept f

end DeclIR
