import DeclIR.Proofs.Traversal.Observation
import DeclIR.Proofs.Traversal.Steady

/-!
# What a traversal does to fields

While the methods of a type are visited, its fields are reached through their anchors only.  So if a
relation between the fields before and after holds across each hook for a declaration and across a
new initializer, it holds across the visit of all methods, whatever else the visitor does
(`Visitor.Respects.each_walkMethod`).
-/

namespace DeclIR

open Visit

/-- A relation between the states of a visitor, and for each state one between a field before and
the field after, at each position. -/
structure FieldFrame (σ : Type) where
  Own : σ → σ → Prop
  Becomes : σ → Nat → Field → Field → Prop
  own_preorder : IsPreorder σ Own
  refl : ∀ own i f, Becomes own i f f
  trans : ∀ {own i f g h}, Becomes own i f g → Becomes own i g h → Becomes own i f h
  mono : ∀ {own own' i f g}, Own own own' → Becomes own i f g → Becomes own' i f g
  /-- Another initializer may always be attached. -/
  declare : ∀ own i f d, Becomes own i f (f.declare d)

attribute [instance] FieldFrame.own_preorder

namespace FieldFrame

variable {σ : Type} (F : FieldFrame σ)

/-- The relation between the states and the fields of a type. -/
structure Fields (a b : σ × List Field) : Prop where
  own : F.Own a.1 b.1
  fields : Pointwise (F.Becomes b.1) a.2 b.2

/-- The relation between the states and the variables in reach of a body. -/
def Reach (a b : σ × Scope) : Prop := F.Fields (a.1, a.2.fields) (b.1, b.2.fields)

/-- The relation between the states and the variable of an anchor. -/
structure Declares (slot : VarSlot) (s t : Site σ Declared) : Prop where
  own : F.Own s.own t.own
  field : ∀ id f, slot = .field id → s.node = .field f →
    ∃ g, t.node = .field g ∧ F.Becomes t.own id.index f g

instance : IsPreorder (σ × List Field) F.Fields where
  refl a := ⟨refl_of F.Own a.1, .refl (F.refl a.1) a.2⟩
  trans _ _ _ h h' :=
    ⟨trans_of F.Own h.own h'.own, (h.fields.mono fun _ _ _ => F.mono h'.own).trans
      (fun _ _ _ _ => F.trans) h'.fields⟩

instance : IsPreorder (σ × Scope) F.Reach where
  refl a := refl_of F.Fields (a.1, a.2.fields)
  trans _ _ _ h h' := trans_of F.Fields h h'

instance (slot : VarSlot) : IsPreorder (Site σ Declared) (F.Declares slot) where
  refl s := ⟨refl_of F.Own s.own, fun _ f _ hf => ⟨f, hf, F.refl ..⟩⟩
  trans s t u h h' := by
    refine ⟨trans_of F.Own h.own h'.own, fun id f hslot hf => ?_⟩
    obtain ⟨g, hg, hfg⟩ := h.field id f hslot hf
    obtain ⟨k, hk, hgk⟩ := h'.field id g hslot hg
    exact ⟨k, hk, F.trans (F.mono h'.own hfg) hgk⟩

variable {F}

/-- What a visitor does to its state alone does nothing to the fields. -/
lemma fields_of_own {a b : σ} (list : List Field) (h : F.Own a b) :
    F.Fields (a, list) (b, list) := ⟨h, .refl (F.refl b) list⟩

lemma reach_of_own {a b : σ} (scope : Scope) (h : F.Own a b) : F.Reach (a, scope) (b, scope) :=
  fields_of_own scope.fields h

end FieldFrame

/-- Each hook that is called while methods are visited keeps to the frame. -/
structure Visitor.Respects {σ : Type} (v : Visitor σ) (F : FieldFrame σ) : Prop where
  visitMethod : v.visitMethod.Leads (ByOwn F.Own)
  endVisitMethod : v.endVisitMethod.Leads (ByOwn F.Own)
  visitParameter : v.visitParameter.Leads (ByOwn F.Own)
  endVisitParameter : v.endVisitParameter.Leads (ByOwn F.Own)
  visitTag : ∀ t, (v.visitTag t).Leads (ByOwn F.Own)
  endVisitTag : ∀ t, (v.endVisitTag t).Leads (ByOwn F.Own)
  keepTags : ∀ keep tags, v.keepTags = some keep → (keep tags).Leads (ByOwn F.Own)
  visitBlock : v.visitBlock.Leads (ByOwn F.Own)
  endVisitBlock : v.endVisitBlock.Leads (ByOwn F.Own)
  visitDeclaration : ∀ slot info, (v.visitDeclaration slot info).Leads (F.Declares slot)
  endVisitDeclaration : ∀ slot info, (v.endVisitDeclaration slot info).Leads (F.Declares slot)
  visitStmt : v.visitStmt.Leads (ByOwn F.Own)
  endVisitStmt : v.endVisitStmt.Leads (ByOwn F.Own)
  visitExpr : v.visitExpr.Leads (ByOwn F.Own)
  endVisitExpr : v.endVisitExpr.Leads (ByOwn F.Own)

namespace Visitor.Respects

variable {σ : Type} {v : Visitor σ} {F : FieldFrame σ} (hv : v.Respects F)
include hv

lemma steady : v.Steady F.Own where
  visitParameter := hv.visitParameter
  endVisitParameter := hv.endVisitParameter
  visitTag := hv.visitTag
  endVisitTag := hv.endVisitTag
  keepTags := hv.keepTags
  visitBlock := hv.visitBlock
  endVisitBlock := hv.endVisitBlock
  visitStmt := hv.visitStmt
  endVisitStmt := hv.endVisitStmt
  visitExpr := hv.visitExpr
  endVisitExpr := hv.endVisitExpr

/-- A visit of the initializer attaches another one at most. -/
lemma walkInitializer (slot : VarSlot) : v.walkInitializer.Leads (F.Declares slot) := by
  intro s
  unfold Visitor.walkInitializer
  rw [after_node_bind]
  cases s.node.base.declaration with
  | none => exact refl_of (F.Declares slot) s
  | some d =>
    show F.Declares slot s ((zoom _ _ v.walkExpr).after s)
    rw [after_zoom]
    refine ⟨hv.steady.walkExpr ⟨d.initializer, s.context, s.own⟩, fun id f _ hf => ?_⟩
    exact ⟨_, congrArg (Declared.declare _) hf, F.declare ..⟩

/-- An anchor's field is put back into its place. -/
lemma walkDeclaration (info : Provenance) (slot : VarSlot) :
    (v.walkDeclaration info slot).Leads (ByOwn F.Reach) := by
  intro s
  unfold Visitor.walkDeclaration
  rw [after_get_bind]
  cases hd : s.own.2.resolve? slot with
  | none => exact refl_of F.Reach s.own
  | some d =>
    have haround := Leads.around (hv.visitDeclaration slot info) (hv.walkInitializer slot)
      (hv.endVisitDeclaration slot info) ⟨d, s.context, s.own.1⟩
    show F.Reach s.own ((zoom _ _ _).after s).own
    rw [after_zoom]
    cases slot with
    | field id =>
      obtain ⟨-, f, hf, rfl⟩ := Scope.resolve?_field_eq_some_iff.mp hd
      obtain ⟨g, hg, hfg⟩ := haround.field id f rfl rfl
      refine ⟨haround.own, ?_⟩
      show Pointwise _ _ (Scope.store s.own.2 _ _).fields
      rw [hg]
      exact .set (F.refl _) hf hfg
    | localVar i =>
      refine ⟨haround.own, ?_⟩
      have hfields (x : Declared) : (s.own.2.store (.localVar i) x).fields = s.own.2.fields := by
        cases x <;> rfl
      show Pointwise _ _ (Scope.store s.own.2 _ _).fields
      rw [hfields]
      exact .refl (F.refl _) _

lemma inBody : v.inBody.Leads (ByOwn F.Fields) := by
  unfold Visitor.inBody
  refine .node_bind fun m => ?_
  cases m.body with
  | none => exact .pure ()
  | some body =>
    intro s
    rw [after_zoom]
    exact hv.steady.walkBody (fun _ _ => F.reach_of_own) hv.walkDeclaration
      ⟨body, s.context, (s.own.1, ⟨m.owner, s.own.2, m.locals⟩)⟩

/-- Across a visit of a method each field keeps to the frame at its position. -/
lemma walkMethod : v.walkMethod.Leads (ByOwn F.Fields) := by
  have hparts : v.inMethod.Leads (ByOwn F.Fields) := by
    unfold Visitor.inMethod
    refine .bind ((hv.steady.inTags _ _).beside fun _ _ => F.fields_of_own) fun _ => ?_
    exact .bind (hv.steady.inParameters.beside fun _ _ => F.fields_of_own) fun _ => hv.inBody
  unfold Visitor.walkMethod
  exact .bind (.inFrame (.around (hv.visitMethod.beside fun _ _ => F.fields_of_own) hparts
    (hv.endVisitMethod.beside fun _ _ => F.fields_of_own))) fun _ => .pure ()

/-- Across a visit of all methods each field keeps to the frame at its position. -/
lemma each_walkMethod : (each v.walkMethod).Leads (ByOwn F.Fields) := hv.walkMethod.each

end Visitor.Respects
end DeclIR
