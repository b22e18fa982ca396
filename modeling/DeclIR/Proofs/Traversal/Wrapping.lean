import DeclIR.Proofs.Traversal.Conduct
import DeclIR.Proofs.Traversal.Erasure

/-!
# Visitors made from others

A visitor can be watched by another one that has more state of its own: each hook does what the hook
of the first visitor does, and takes note of it.  Such a visitor is given by one rule for all hooks
(`Visitor.wrap`).  What holds of each hook that the rule makes holds of the visitor
(`Visitor.Hooks.wrap`); if no hook lets the further state take part, the walk does not either
(`Visitor.wrap_erasesTo`).
-/

namespace DeclIR

open Visit

variable {σ τ : Type}

/-- The visitor whose hooks are made from those of another one. -/
def Visitor.wrap (v : Visitor σ)
    (hook : ∀ ⦃ν α : Type⦄, Phase → (ν → Node) → Visit σ ν α → Visit τ ν α)
    (tags : List Tag → Visit σ Unit (List Tag) → Visit τ Unit (List Tag)) : Visitor τ where
  reach := v.reach
  visitType := hook .pre .type v.visitType
  endVisitType := hook .post .type v.endVisitType
  visitField := hook .pre .field v.visitField
  endVisitField := hook .post .field v.endVisitField
  visitMethod := hook .pre .method v.visitMethod
  endVisitMethod := hook .post .method v.endVisitMethod
  visitParameter := hook .pre .parameter v.visitParameter
  endVisitParameter := hook .post .parameter v.endVisitParameter
  visitTag t := hook .pre (fun _ => .tag t) (v.visitTag t)
  endVisitTag t := hook .post (fun _ => .tag t) (v.endVisitTag t)
  keepTags := v.keepTags.map fun keep list => tags list (keep list)
  visitBlock := hook .pre .block v.visitBlock
  endVisitBlock := hook .post .block v.endVisitBlock
  visitDeclaration slot info :=
    hook .pre (.declaration slot info) (v.visitDeclaration slot info)
  endVisitDeclaration slot info :=
    hook .post (.declaration slot info) (v.endVisitDeclaration slot info)
  visitStmt := hook .pre .stmt v.visitStmt
  endVisitStmt := hook .post .stmt v.endVisitStmt
  visitExpr := hook .pre .expr v.visitExpr
  endVisitExpr := hook .post .expr v.endVisitExpr

section Wrap

variable {v : Visitor σ} {hook : ∀ ⦃ν α : Type⦄, Phase → (ν → Node) → Visit σ ν α → Visit τ ν α}
  {tags : List Tag → Visit σ Unit (List Tag) → Visit τ Unit (List Tag)}

/-- What holds of each hook that is made from one of the visitor's. -/
lemma Visitor.Hooks.wrap {P : ∀ ⦃ν α : Type⦄, Phase → (ν → Node) → Visit σ ν α → Prop}
    {Q : ∀ ⦃ν α : Type⦄, Phase → (ν → Node) → Visit τ ν α → Prop}
    (h : ∀ ⦃ν α⦄ phase (x : ν → Node) (w : Visit σ ν α), P phase x w → Q phase x (hook phase x w))
    (hv : v.Hooks P) : (v.wrap hook tags).Hooks Q where
  visitType := h _ _ _ hv.visitType
  endVisitType := h _ _ _ hv.endVisitType
  visitField := h _ _ _ hv.visitField
  endVisitField := h _ _ _ hv.endVisitField
  visitMethod := h _ _ _ hv.visitMethod
  endVisitMethod := h _ _ _ hv.endVisitMethod
  visitParameter := h _ _ _ hv.visitParameter
  endVisitParameter := h _ _ _ hv.endVisitParameter
  visitTag t := h _ _ _ (hv.visitTag t)
  endVisitTag t := h _ _ _ (hv.endVisitTag t)
  visitBlock := h _ _ _ hv.visitBlock
  endVisitBlock := h _ _ _ hv.endVisitBlock
  visitDeclaration slot info := h _ _ _ (hv.visitDeclaration slot info)
  endVisitDeclaration slot info := h _ _ _ (hv.endVisitDeclaration slot info)
  visitStmt := h _ _ _ hv.visitStmt
  endVisitStmt := h _ _ _ hv.endVisitStmt
  visitExpr := h _ _ _ hv.visitExpr
  endVisitExpr := h _ _ _ hv.endVisitExpr

/-- If each hook does the same without more state, so does the visitor. -/
lemma Visitor.wrap_erasesTo {π : τ → σ}
    (hhook : ∀ ⦃ν α⦄ phase (x : ν → Node) (w : Visit σ ν α), (hook phase x w).ErasesTo π w)
    (htags : ∀ list w, (tags list w).ErasesTo π w) : (v.wrap hook tags).ErasesTo π v where
  reach := rfl
  visitType := hhook _ _ _
  endVisitType := hhook _ _ _
  visitField := hhook _ _ _
  endVisitField := hhook _ _ _
  visitMethod := hhook _ _ _
  endVisitMethod := hhook _ _ _
  visitParameter := hhook _ _ _
  endVisitParameter := hhook _ _ _
  visitTag _ := hhook _ _ _
  endVisitTag _ := hhook _ _ _
  keepTags list := by
    show Option.Rel _ (v.keepTags.map _) v.keepTags
    cases v.keepTags with
    | none => exact .none
    | some keep => exact .some (htags list _)
  visitBlock := hhook _ _ _
  endVisitBlock := hhook _ _ _
  visitDeclaration _ _ := hhook _ _ _
  endVisitDeclaration _ _ := hhook _ _ _
  visitStmt := hhook _ _ _
  endVisitStmt := hhook _ _ _
  visitExpr := hhook _ _ _
  endVisitExpr := hhook _ _ _

end Wrap

end DeclIR
