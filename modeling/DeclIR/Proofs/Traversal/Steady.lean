import DeclIR.Proofs.Traversal.Frame

/-!
# Steady visitors

A relation between the states of a visitor that each of its hooks keeps to, except for those that
are called at anchors, is kept to by the walks over expressions, annotations and parameters.  If the
visits of anchors keep to a relation that also speaks of the variables in reach, so do the walks
over bodies (`Visitor.Steady.walkBody`).
-/

namespace DeclIR

open Visit

variable {σ : Type} {R : σ → σ → Prop}

/-- The hooks that are called for parameters, annotations and code keep to the relation.  Nothing is
said of the hooks for types, fields, methods and anchors. -/
structure Visitor.Steady (v : Visitor σ) (R : σ → σ → Prop) : Prop where
  visitParameter : v.visitParameter.Leads (ByOwn R)
  endVisitParameter : v.endVisitParameter.Leads (ByOwn R)
  visitTag : ∀ t, (v.visitTag t).Leads (ByOwn R)
  endVisitTag : ∀ t, (v.endVisitTag t).Leads (ByOwn R)
  keepTags : ∀ keep tags, v.keepTags = some keep → (keep tags).Leads (ByOwn R)
  visitBlock : v.visitBlock.Leads (ByOwn R)
  endVisitBlock : v.endVisitBlock.Leads (ByOwn R)
  visitStmt : v.visitStmt.Leads (ByOwn R)
  endVisitStmt : v.endVisitStmt.Leads (ByOwn R)
  visitExpr : v.visitExpr.Leads (ByOwn R)
  endVisitExpr : v.endVisitExpr.Leads (ByOwn R)

namespace Visitor.Steady

variable [IsPreorder σ R] {v : Visitor σ} (hv : v.Steady R)
include hv

/-! ## Expressions, annotations and parameters -/

lemma walkExprWithin (n : Nat) : (v.walkExprWithin n).Leads (ByOwn R) := by
  induction n with
  | zero => exact .pure ()
  | succ n ih =>
    have hparts : (inOperands (v.walkExprWithin n)).Leads (ByOwn R) := by
      unfold inOperands
      refine .node_bind fun e => ?_
      cases e with
      | instanceField info f receiver => exact .part ih
      | binary info op lhs rhs =>
        exact .bind (.part (ih.bind fun _ => .node)) fun _ => .part ih
      | _ => exact .pure ()
    unfold Visitor.walkExprWithin
    refine .node_bind fun e => ?_
    refine .bind (.inFrame (.around hv.visitExpr hparts hv.endVisitExpr)) fun frame? => ?_
    cases frame? with
    | none => exact .pure ()
    | some frame => exact .node_bind fun _ => .setNode _

lemma walkExpr : v.walkExpr.Leads (ByOwn R) := by
  unfold Visitor.walkExpr
  exact .node_bind fun e => hv.walkExprWithin _

lemma walkTag (t : Tag) : (v.walkTag t).Leads (ByOwn R) := by
  unfold Visitor.walkTag
  exact .bind (.inFrame (.around (hv.visitTag t) (.pure ()) (hv.endVisitTag t))) fun _ => .pure ()

lemma inTags {ν : Type} (get : ν → List Tag) (put : ν → List Tag → ν) :
    (v.inTags get put).Leads (ByOwn R) := by
  have hwalk (tags : List Tag) : (v.walkTags tags).Leads (ByOwn R) := by
    unfold Visitor.walkTags
    cases hk : v.keepTags with
    | none => exact .bind (.forM hv.walkTag) fun _ => .pure tags
    | some keep => exact hv.keepTags keep tags hk
  unfold Visitor.inTags
  exact .node_bind fun n => .bind (.part (hwalk (get n))) fun _ => .setNode _

lemma inParameters : v.inParameters.Leads (ByOwn R) := by
  have hwalk : v.walkParameter.Leads (ByOwn R) := by
    unfold Visitor.walkParameter
    exact .bind (.inFrame (.around hv.visitParameter (.pure ()) hv.endVisitParameter))
      fun _ => .pure ()
  unfold Visitor.inParameters
  exact .node_bind fun m => .part hwalk.each

/-! ## Bodies -/

section Bodies

variable {S : σ × Scope → σ × Scope → Prop} [IsPreorder (σ × Scope) S]
  (hRS : ∀ a b scope, R a b → S (a, scope) (b, scope))
include hRS

section Parts

variable {w : Visit (σ × Scope) Stmt Unit} (hw : w.Leads (ByOwn S))
include hw

omit hv hRS in
lemma eachStmt : (eachStmt w).Leads (ByOwn S) := by
  unfold Visitor.eachStmt
  refine .eachSegment (.node_bind fun x => .bind hw.inFrame fun frame? => ?_)
  cases frame? with
  | none => exact .node_bind fun _ => .pure _
  | some frame => exact .node_bind fun _ => .pure _

omit [IsPreorder σ R] in
lemma walkBlockBy : (v.walkBlockBy w).Leads (ByOwn S) := by
  have hparts : (inBlock w).Leads (ByOwn S) := by
    unfold inBlock
    exact .node_bind fun b => .part (eachStmt hw)
  unfold Visitor.walkBlockBy
  exact .around (hv.visitBlock.beside hRS) hparts (hv.endVisitBlock.beside hRS)

omit [IsPreorder σ R] in
lemma walkFixedBlockBy : (v.walkFixedBlockBy w).Leads (ByOwn S) := by
  unfold Visitor.walkFixedBlockBy
  exact .bind (.inFrame (hv.walkBlockBy hRS hw)) fun _ => .pure ()

lemma inStmt : (v.inStmt w).Leads (ByOwn S) := by
  have hexpr : (beside v.walkExpr).Leads (ByOwn S) := hv.walkExpr.beside hRS
  have hblock := hv.walkFixedBlockBy hRS hw
  unfold Visitor.inStmt
  refine .node_bind fun x => ?_
  cases x with
  | declare info slot => exact .pure ()
  | eval info e => exact .part hexpr
  | ret info value =>
    cases value with
    | none => exact .pure ()
    | some e => exact .part hexpr
  | branch info cond onTrue onFalse =>
    refine .bind (.part (hexpr.bind fun _ => .node)) fun cond => ?_
    refine .bind (.part (hblock.bind fun _ => .node)) fun onTrue => ?_
    cases onFalse with
    | none => exact .pure ()
    | some b => exact .part hblock
  | block b => exact .pure ()

end Parts

variable (hanchor : ∀ info slot, (v.walkDeclaration info slot).Leads (ByOwn S))
include hanchor

lemma walkStmtWithin (n : Nat) : (v.walkStmtWithin n).Leads (ByOwn S) := by
  induction n with
  | zero => exact .pure ()
  | succ n ih =>
    have hstmt := Leads.around (hv.visitStmt.beside hRS) (hv.inStmt hRS ih)
      (hv.endVisitStmt.beside hRS)
    unfold Visitor.walkStmtWithin
    refine .node_bind fun x => ?_
    cases x with
    | declare info slot => exact hanchor info slot
    | block b => exact .part (hv.walkBlockBy hRS ih)
    | _ => exact hstmt

/-- Outside of anchors, a walk over a body does nothing to the variables in reach. -/
lemma walkBody : v.walkBody.Leads (ByOwn S) := by
  unfold Visitor.walkBody
  exact .node_bind fun b => hv.walkFixedBlockBy hRS (hv.walkStmtWithin hRS hanchor _)

end Bodies
end Visitor.Steady
end DeclIR
