import DeclIR.Pass.Basic
import DeclIR.Traversal.Walk

/-!
# Inlining of constants

Each static read of a compile-time constant of the same type is replaced by the constant's literal,
if its initializer was a literal before the pass.  The literal takes the provenance of the read.
-/

namespace DeclIR

open Visit

namespace Field

/-- The literal that stands for a compile-time constant. -/
def constant? (f : Field) : Option Literal := if f.isConstant then f.literal? else none

/-- A field has such a literal just when it is a constant and is initialized with the literal. -/
theorem constant?_eq_some_iff {f : Field} {v : Literal} :
    f.constant? = some v ↔
      f.isConstant = true ∧ ∃ d info, f.declaration = some d ∧ d.initializer = .literal info v := by
  have hliteral (e : Expr) : e.literal? = some v ↔ ∃ info, e = .literal info v := by
    cases e <;> simp [Expr.literal?]
  rw [constant?, literal?, Variable.initializer?]
  cases f.isConstant <;> cases f.declaration <;> simp [hliteral]

end Field

namespace DeclaredType

/-- The literal that stands for a constant of this type. -/
def constant? (t : DeclaredType) (id : FieldId) : Option Literal := (t.field? id).bind (·.constant?)

/-- The constants of a type, without the look-up: its own fields that are compile-time constants and
are initialized with a literal, which stands for them. -/
theorem constant?_eq_some_iff {t : DeclaredType} {id : FieldId} {v : Literal} :
    t.constant? id = some v ↔
      id.owner = t.id ∧ ∃ f d info, t.fields[id.index]? = some f ∧ f.isConstant = true ∧
        f.declaration = some d ∧ d.initializer = .literal info v := by
  rw [constant?, field?, Option.bind_eq_some_iff]
  constructor
  · intro h
    obtain ⟨f, hf, hv⟩ := h
    split at hf
    · rename_i howner
      obtain ⟨hconstant, d, info, hd, hinit⟩ := Field.constant?_eq_some_iff.mp hv
      exact ⟨howner, f, d, info, hf, hconstant, hd, hinit⟩
    · cases hf
  · intro h
    obtain ⟨howner, f, d, info, hf, hconstant, hd, hinit⟩ := h
    rw [if_pos howner]
    exact ⟨f, hf, Field.constant?_eq_some_iff.mpr ⟨hconstant, d, info, hd, hinit⟩⟩

/-- Whether some constant of this type has a literal that stands for it. -/
def hasConstants (t : DeclaredType) : Bool := t.fields.any (·.constant?.isSome)

end DeclaredType

/-- The visitor that replaces static reads of the fields that `constant?` has a literal for. -/
def inliner (constant? : FieldId → Option Literal) : Visitor Unit where
  endVisitExpr := do
    match ← node with
    | .staticField info f =>
      match constant? f with
      | some value => request (.replaceExpr (.literal info value))
      | none => pure ()
    | _ => pure ()

/-- The pass that inlines constants. -/
def inlineConstants : Pass Fault where
  name := "inline-constants"
  run t :=
    if t.hasConstants then
      match (inliner t.constant?).walkType ⟨t, {}, ()⟩ with
      | .ok _ s => .ok s.context.changed s.node
      | .error f s => .error f s.node
    else .ok false t

end DeclIR
