import DeclIR.Proofs.Inlining.Reads

/-!
# Targets of assignments

The inliner is asked about an expression without being told what it is part of.  So it treats the
target of an assignment like a value that is read, and an assignment to a constant becomes one to
the constant's literal (`run_keeps_target_iff`).
-/

namespace DeclIR

namespace Expr

/-- The field that an expression refers to, in one way or the other. -/
def fieldRef? : Expr → Option FieldId
  | .staticField _ f => some f
  | .instanceField _ f _ => some f
  | _ => none

variable {constant? : FieldId → Option Literal}

/-- A reference to a field stays one, unless it is the read of a constant that has a literal. -/
lemma fieldRef?_inline_iff {e : Expr} {f : FieldId} (h : e.fieldRef? = some f) :
    (e.inline constant?).fieldRef? = some f ↔ (e.read? = some f → constant? f = none) := by
  cases e with
  | staticField i g =>
    cases h
    rw [inline]
    cases constant? f <;> simp [fieldRef?, read?]
  | instanceField i g receiver =>
    cases h
    simp [inline, fieldRef?, read?]
  | _ => cases h

end Expr

/-- After a run without failure there is an assignment wherever there was one before, at the same
place of the same walked expression.  If its target was a reference to a field, it still is one to
the same field, unless the field is a constant that has a literal and the target refers to it
through its type.  The literal is the target then. -/
theorem run_keeps_target_iff (t t' : DeclaredType) (changed : Bool)
    (h : inlineConstants.run t = .ok changed t') (k : Nat) (path : List Nat) (e : Expr)
    (he : t.walked[k]? = some e) (info : Provenance) (lhs rhs : Expr)
    (hassign : e.at? path = some (.binary info .assign lhs rhs)) :
    ∃ e' lhs' rhs', t'.walked[k]? = some e' ∧
      e'.at? path = some (.binary info .assign lhs' rhs') ∧
      (∀ f, lhs.fieldRef? = some f →
        (lhs'.fieldRef? = some f ↔ (lhs.read? = some f → t.constant? f = none))) ∧
      ∀ f value, lhs.read? = some f → t.constant? f = some value →
        lhs' = .literal lhs.info value := by
  obtain ⟨rfl, -⟩ := DeclaredType.of_run_eq_ok h
  refine ⟨e.inline t.constant?, lhs.inline t.constant?, rhs.inline t.constant?, ?_, ?_, ?_, ?_⟩
  · rw [DeclaredType.walked_inlined, List.getElem?_map, he, Option.map_some]
  · rw [Expr.at?_inline, hassign, Option.map_some, Expr.inline]
  · intro f hf
    exact Expr.fieldRef?_inline_iff hf
  · intro f value hread hvalue
    exact Expr.inline_of_read? hread hvalue

/-- A class with a constant and a method that assigns to it. -/
def DeclaredType.assignsConstant : DeclaredType :=
  let constant := Field.new .synthetic (.ofChar 'K') 0 (.primitive .int) true .constant
  let assignment := Expr.binary .synthetic .assign (.staticField .synthetic ⟨0, 0⟩)
    (.literal .synthetic (.int 2))
  let t := (DeclaredType.new .synthetic 0 "C" .classType none).insertField
    (constant.declare ⟨.synthetic, .literal .synthetic (.int 1)⟩)
  let run : Method :=
    { DeclaredType.emptyInitializer .synthetic 0 true with
      name := "run"
      body := some ⟨.synthetic, [.eval .synthetic assignment]⟩ }
  { t with methods := t.methods ++ [run] }

/-- The pass does not fail on it, since its anchors resolve. -/
lemma run_assignsConstant : ∃ changed,
    inlineConstants.run .assignsConstant = .ok changed (DeclaredType.inlined .assignsConstant) :=
  exists_run_eq_ok (by decide +kernel)

/-- The target of that assignment is a literal after a run. -/
theorem run_turns_target_assignsConstant :
    ∃ (t' : DeclaredType) (changed : Bool) (e' lhs' rhs' : Expr),
      inlineConstants.run .assignsConstant = .ok changed t' ∧ t'.walked[1]? = some e' ∧
        e'.at? [] = some (.binary .synthetic .assign lhs' rhs') ∧
        lhs'.fieldRef? ≠ some ⟨0, 0⟩ ∧ lhs' = .literal .synthetic (.int 1) := by
  obtain ⟨changed, hrun⟩ := run_assignsConstant
  obtain ⟨e', lhs', rhs', he', hassign, hkept, hliteral⟩ :=
    run_keeps_target_iff .assignsConstant _ changed hrun 1 [] _ rfl _ _ _ rfl
  have hvalue : DeclaredType.assignsConstant.constant? ⟨0, 0⟩ = some (.int 1) := rfl
  refine ⟨_, changed, e', lhs', rhs', hrun, he', hassign, ?_, hliteral _ _ rfl hvalue⟩
  intro hfield
  cases (hkept ⟨0, 0⟩ rfl).mp hfield rfl

/-- Inlining does not keep every reference to a field that is the target of an assignment. -/
theorem not_run_keeps_target :
    ¬∀ (t t' : DeclaredType) (changed : Bool), inlineConstants.run t = .ok changed t' →
      ∀ (k : Nat) (path : List Nat) (e : Expr) (info : Provenance) (lhs rhs : Expr) (f : FieldId),
        t.walked[k]? = some e → e.at? path = some (.binary info .assign lhs rhs) →
        lhs.fieldRef? = some f →
        ∃ (e' : Expr) (info' : Provenance) (lhs' rhs' : Expr), t'.walked[k]? = some e' ∧
          e'.at? path = some (.binary info' .assign lhs' rhs') ∧ lhs'.fieldRef? = some f := by
  intro h
  obtain ⟨changed, hrun⟩ := run_assignsConstant
  obtain ⟨e', info', lhs', rhs', he', hassign, hfield⟩ :=
    h .assignsConstant _ changed hrun 1 [] _ _ _ _ ⟨0, 0⟩ rfl rfl rfl
  have hleft : (DeclaredType.inlined .assignsConstant).walked[1]? = some (.binary .synthetic .assign
      (.literal .synthetic (.int 1)) (.literal .synthetic (.int 2))) := by decide +kernel
  rw [hleft] at he'
  cases he'
  cases hassign
  cases hfield

end DeclIR
