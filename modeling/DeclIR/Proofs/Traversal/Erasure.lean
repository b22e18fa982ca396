import DeclIR.Proofs.Traversal.Frame

/-!
# Visitors with more state

A visitor may keep more in its own state than its hooks need, for example a record of what they did.
Without it the hooks do the same, and so does the walk (`Visitor.ErasesTo.walkProgram`): the further
state can be read after a walk, but it does not take part in it.
-/

namespace DeclIR

open Visit

variable {σ τ ε ν μ α β : Type}

/-- The same site for a visitor with a part of the state. -/
def Site.map (π : τ → σ) (s : Site τ ν) : Site σ ν := ⟨s.node, s.context, π s.own⟩

/-- The same outcome for a visitor with a part of the state. -/
def Visit.erase (π : τ → σ) :
    EStateM.Result Fault (Site τ ν) α → EStateM.Result Fault (Site σ ν) α
  | .ok a s => .ok a (s.map π)
  | .error e s => .error e (s.map π)

/-- The first visit is the second with more state, of which `π` gives the part that the second knows
of. -/
def Visit.ErasesTo (π : τ → σ) (w : Visit τ ν α) (x : Visit σ ν α) : Prop :=
  ∀ s, x (s.map π) = erase π (w s)

namespace Visit.ErasesTo

variable {π : τ → σ}

/-- Where a walk erases to another, so does the state it leaves, whether it succeeds or fails. -/
lemma after {w : Visit τ ν α} {x : Visit σ ν α} (hw : ErasesTo π w x) (s : Site τ ν) :
    x.after (s.map π) = (w.after s).map π := by
  unfold Visit.after
  rw [hw]
  cases w s <;> rfl

lemma pure (a : α) : ErasesTo π (pure a : Visit τ ν α) (pure a) := fun _ => rfl

lemma throw (f : Fault) : ErasesTo π (throw f : Visit τ ν α) (throw f) := fun _ => rfl

lemma node : ErasesTo π (node : Visit τ ν ν) node := fun _ => rfl

lemma setNode (n : ν) : ErasesTo π (setNode n : Visit τ ν Unit) (setNode n) := fun _ => rfl

lemma context : ErasesTo π (context : Visit τ ν Context) context := fun _ => rfl

lemma mapContext (f : Context → Context) :
    ErasesTo π (mapContext f : Visit τ ν Unit) (mapContext f) := fun _ => rfl

lemma leave : ErasesTo π (leave : Visit τ ν (Option Frame)) leave := fun _ => rfl

/-- Erasure goes through a sequence of walks, step by step. -/
lemma bind {w : Visit τ ν α} {x : Visit σ ν α} {f : α → Visit τ ν β} {g : α → Visit σ ν β}
    (hw : ErasesTo π w x) (hf : ∀ a, ErasesTo π (f a) (g a)) :
    ErasesTo π (w >>= f) (x >>= g) := by
  intro s
  rw [bind_apply, bind_apply, hw s]
  cases w s with
  | ok a t => exact hf a t
  | error e t => rfl

lemma node_bind {f : ν → Visit τ ν β} {g : ν → Visit σ ν β} (hf : ∀ n, ErasesTo π (f n) (g n)) :
    ErasesTo π (Visit.node >>= f) (Visit.node >>= g) := node.bind hf

/-- A walk that goes on by the whole state erases where its continuations do. -/
lemma get_bind {f : Site τ ν → Visit τ ν β} {g : Site σ ν → Visit σ ν β}
    (hf : ∀ s, ErasesTo π (f s) (g (s.map π))) : ErasesTo π (get >>= f) (get >>= g) :=
  fun s => hf s s

/-- A visit elsewhere, if the ways there and back do not depend on what is erased. -/
lemma zoom {σ' τ' : Type} {ρ : τ' → σ'} {w : Visit τ' μ α} {x : Visit σ' μ α}
    {there : Site τ ν → Site τ' μ} {back : Site τ' μ → Site τ ν → Site τ ν}
    {there' : Site σ ν → Site σ' μ} {back' : Site σ' μ → Site σ ν → Site σ ν}
    (hw : ErasesTo ρ w x) (hthere : ∀ s, there' (s.map π) = (there s).map ρ)
    (hback : ∀ t s, back' (t.map ρ) (s.map π) = (back t s).map π) :
    ErasesTo π (zoom there back w) (zoom there' back' x) := by
  intro s
  unfold Visit.zoom
  rw [hthere, hw]
  cases w (there s) with
  | ok a t => exact congrArg _ (hback t s)
  | error e t => exact congrArg _ (hback t s)

/-- Erasure goes through the walk over a part of the node. -/
lemma part {w : Visit τ μ α} {x : Visit σ μ α} (hw : ErasesTo π w x) (n : μ) (put : μ → ν) :
    ErasesTo π (part n put w) (part n put x) := hw.zoom (fun _ => rfl) fun _ _ => rfl

/-- Erasure goes through a walk that keeps a second record untouched beside its own. -/
lemma beside {w : Visit τ ν α} {x : Visit σ ν α} (hw : ErasesTo π w x) :
    ErasesTo (Prod.map π (id : ε → ε)) (beside w) (beside x) :=
  hw.zoom (fun _ => rfl) fun _ _ => rfl

/-- A visit that does not know of further state does the same without it. -/
lemma of_beside (w : Visit σ ν α) : ErasesTo Prod.fst (Visit.beside w : Visit (σ × ε) ν α) w := by
  intro s
  unfold Visit.beside Visit.zoom
  show w (s.map Prod.fst) = erase Prod.fst (match w (s.map Prod.fst) with
    | .ok a t => _
    | .error e t => _)
  cases w (s.map Prod.fst) <;> rfl

lemma inFrame {w : Visit τ ν Unit} {x : Visit σ ν Unit} (hw : ErasesTo π w x) (kind : NodeKind)
    (slot : Slot) : ErasesTo π (inFrame kind slot w) (inFrame kind slot x) :=
  (mapContext _).bind fun _ => hw.bind fun _ => leave

/-- Erasure goes through the hook pair of a node: the gate, the parts behind it and the closing
hook. -/
lemma around {pre : Visit τ ν Bool} {pre' : Visit σ ν Bool} {parts post : Visit τ ν Unit}
    {parts' post' : Visit σ ν Unit} (hpre : ErasesTo π pre pre')
    (hparts : ErasesTo π parts parts') (hpost : ErasesTo π post post') :
    ErasesTo π (around pre parts post) (around pre' parts' post') := by
  unfold Visit.around
  refine hpre.bind fun descend => ?_
  cases descend with
  | true => exact hparts.bind fun _ => hpost
  | false => exact (pure ()).bind fun _ => hpost

/-- Erasure goes through a list of which each item is replaced by a segment. -/
lemma eachSegment {w : Visit τ μ (List μ)} {x : Visit σ μ (List μ)} (hw : ErasesTo π w x) :
    ErasesTo π (eachSegment w) (eachSegment x) := by
  have hlist (list : List μ) (c : Context) (own : τ) :
      eachOf x list c (π own) = erase π (eachOf w list c own) := by
    induction list generalizing c own with
    | nil => rfl
    | cons n rest ih =>
      have hn : x ⟨n, c, π own⟩ = erase π (w ⟨n, c, own⟩) := hw ⟨n, c, own⟩
      unfold eachOf
      rw [hn]
      -- A walk that fails does so in the larger state as well, at the same item.
      cases w ⟨n, c, own⟩ with
      | error e t => rfl
      | ok segment t =>
        have hrest := ih t.context t.own
        simp only [erase, Site.map]
        rw [hrest]
        cases eachOf w rest t.context t.own <;> rfl
  intro s
  exact hlist s.node s.context s.own

lemma each {w : Visit τ μ Unit} {x : Visit σ μ Unit} (hw : ErasesTo π w x) :
    ErasesTo π (each w) (each x) :=
  eachSegment (hw.bind fun _ => node_bind fun _ => pure _)

/-- Erasure goes through a loop over a fixed list. -/
lemma forM {w : μ → Visit τ ν Unit} {x : μ → Visit σ ν Unit} (hw : ∀ n, ErasesTo π (w n) (x n))
    (list : List μ) : ErasesTo π (list.forM w) (list.forM x) := by
  induction list with
  | nil => exact pure ()
  | cons n rest ih => exact (hw n).bind fun _ => ih

end Visit.ErasesTo

/-- The first visitor is the second with more state. -/
structure Visitor.ErasesTo (π : τ → σ) (v : Visitor τ) (w : Visitor σ) : Prop where
  reach : v.reach = w.reach
  visitType : v.visitType.ErasesTo π w.visitType
  endVisitType : v.endVisitType.ErasesTo π w.endVisitType
  visitField : v.visitField.ErasesTo π w.visitField
  endVisitField : v.endVisitField.ErasesTo π w.endVisitField
  visitMethod : v.visitMethod.ErasesTo π w.visitMethod
  endVisitMethod : v.endVisitMethod.ErasesTo π w.endVisitMethod
  visitParameter : v.visitParameter.ErasesTo π w.visitParameter
  endVisitParameter : v.endVisitParameter.ErasesTo π w.endVisitParameter
  visitTag : ∀ t, (v.visitTag t).ErasesTo π (w.visitTag t)
  endVisitTag : ∀ t, (v.endVisitTag t).ErasesTo π (w.endVisitTag t)
  keepTags : ∀ tags, Option.Rel (fun f g => (f tags).ErasesTo π (g tags)) v.keepTags w.keepTags
  visitBlock : v.visitBlock.ErasesTo π w.visitBlock
  endVisitBlock : v.endVisitBlock.ErasesTo π w.endVisitBlock
  visitDeclaration : ∀ slot info,
    (v.visitDeclaration slot info).ErasesTo π (w.visitDeclaration slot info)
  endVisitDeclaration : ∀ slot info,
    (v.endVisitDeclaration slot info).ErasesTo π (w.endVisitDeclaration slot info)
  visitStmt : v.visitStmt.ErasesTo π w.visitStmt
  endVisitStmt : v.endVisitStmt.ErasesTo π w.endVisitStmt
  visitExpr : v.visitExpr.ErasesTo π w.visitExpr
  endVisitExpr : v.endVisitExpr.ErasesTo π w.endVisitExpr

namespace Visitor.ErasesTo

variable {π : τ → σ} {v : Visitor τ} {w : Visitor σ} (hv : v.ErasesTo π w)
include hv

/-! ## Code -/

/-- At every depth, walking an expression with the larger state erases to walking it with the
smaller one. -/
lemma walkExprWithin (n : Nat) : (v.walkExprWithin n).ErasesTo π (w.walkExprWithin n) := by
  induction n with
  | zero => exact .pure ()
  | succ n ih =>
    have hparts :
        (inOperands (v.walkExprWithin n)).ErasesTo π (inOperands (w.walkExprWithin n)) := by
      unfold inOperands
      refine .node_bind fun e => ?_
      cases e with
      | instanceField info f receiver => exact ih.part _ _
      | binary info op lhs rhs =>
        exact ((ih.bind fun _ => .node).part _ _).bind fun lhs => ih.part _ _
      | _ => exact .pure ()
    unfold Visitor.walkExprWithin
    refine .node_bind fun e => ?_
    refine ((hv.visitExpr.around hparts hv.endVisitExpr).inFrame _ _).bind fun frame? => ?_
    cases frame? with
    | none => exact .pure ()
    | some frame => exact .node_bind fun _ => .setNode _

lemma walkExpr : v.walkExpr.ErasesTo π w.walkExpr := by
  unfold Visitor.walkExpr
  rw [hv.reach]
  exact .node_bind fun e => hv.walkExprWithin _

lemma walkInitializer : v.walkInitializer.ErasesTo π w.walkInitializer := by
  unfold Visitor.walkInitializer
  refine .node_bind fun target => ?_
  cases target.base.declaration with
  | none => exact .pure ()
  | some d => exact hv.walkExpr.part _ _

/-- The walk at an anchor erases, with the scope kept beside both states. -/
lemma walkDeclaration (info : Provenance) (slot : VarSlot) :
    (v.walkDeclaration info slot).ErasesTo (Prod.map π id) (w.walkDeclaration info slot) := by
  unfold Visitor.walkDeclaration
  refine .get_bind fun s => ?_
  have hscope : (s.map (Prod.map π id)).own.2 = s.own.2 := rfl
  rw [hscope]
  cases s.own.2.resolve? slot with
  | none => exact .throw _
  | some target =>
    exact ((hv.visitDeclaration slot info).around hv.walkInitializer
      (hv.endVisitDeclaration slot info)).zoom (fun _ => rfl) fun _ _ => rfl

section Parts

variable {x : Visit (τ × Scope) Stmt Unit} {y : Visit (σ × Scope) Stmt Unit}
  (hx : x.ErasesTo (Prod.map π id) y)
include hx

omit hv in
/-- A statement list erases where the walk over one statement does. -/
lemma eachStmt : (eachStmt x).ErasesTo (Prod.map π id) (eachStmt y) := by
  unfold Visitor.eachStmt
  refine .eachSegment (.node_bind fun s => (hx.inFrame _ _).bind fun frame? => ?_)
  cases frame? with
  | none => exact .node_bind fun _ => .pure _
  | some frame => exact .node_bind fun _ => .pure _

lemma walkBlockBy : (v.walkBlockBy x).ErasesTo (Prod.map π id) (w.walkBlockBy y) := by
  have hparts : (inBlock x).ErasesTo (Prod.map π id) (inBlock y) := by
    unfold inBlock
    exact .node_bind fun b => (eachStmt hx).part _ _
  unfold Visitor.walkBlockBy
  exact hv.visitBlock.beside.around hparts hv.endVisitBlock.beside

lemma walkFixedBlockBy :
    (v.walkFixedBlockBy x).ErasesTo (Prod.map π id) (w.walkFixedBlockBy y) := by
  unfold Visitor.walkFixedBlockBy
  exact ((hv.walkBlockBy hx).inFrame _ _).bind fun _ => .pure ()

lemma inStmt : (v.inStmt x).ErasesTo (Prod.map π id) (w.inStmt y) := by
  have hexpr : (beside v.walkExpr).ErasesTo (Prod.map π (id : Scope → Scope)) (beside w.walkExpr) :=
    hv.walkExpr.beside
  have hblock := hv.walkFixedBlockBy hx
  unfold Visitor.inStmt
  refine .node_bind fun s => ?_
  cases s with
  | declare info slot => exact .pure ()
  | eval info e => exact hexpr.part _ _
  | ret info value =>
    cases value with
    | none => exact .pure ()
    | some e => exact hexpr.part _ _
  | branch info cond onTrue onFalse =>
    refine ((hexpr.bind fun _ => .node).part _ _).bind fun cond => ?_
    refine ((hblock.bind fun _ => .node).part _ _).bind fun onTrue => ?_
    cases onFalse with
    | none => exact .pure ()
    | some b => exact hblock.part _ _
  | block b => exact .pure ()

end Parts

/-- At every depth of nesting the walk over a statement erases. -/
lemma walkStmtWithin (n : Nat) :
    (v.walkStmtWithin n).ErasesTo (Prod.map π id) (w.walkStmtWithin n) := by
  induction n with
  | zero => exact .pure ()
  | succ n ih =>
    have hstmt := hv.visitStmt.beside.around (hv.inStmt ih) hv.endVisitStmt.beside
    unfold Visitor.walkStmtWithin
    refine .node_bind fun s => ?_
    cases s with
    | declare info slot => exact hv.walkDeclaration info slot
    | block b => exact (hv.walkBlockBy ih).part _ _
    | _ => exact hstmt

lemma walkBody : v.walkBody.ErasesTo (Prod.map π id) w.walkBody := by
  unfold Visitor.walkBody
  rw [hv.reach]
  exact .node_bind fun b => hv.walkFixedBlockBy (hv.walkStmtWithin _)

/-! ## Declarations -/

lemma walkTag (t : Tag) : (v.walkTag t).ErasesTo π (w.walkTag t) := by
  unfold Visitor.walkTag
  exact (((hv.visitTag t).around (.pure ()) (hv.endVisitTag t)).inFrame _ _).bind fun _ => .pure ()

lemma inTags (get : ν → List Tag) (put : ν → List Tag → ν) :
    (v.inTags get put).ErasesTo π (w.inTags get put) := by
  have hwalk (tags : List Tag) : (v.walkTags tags).ErasesTo π (w.walkTags tags) := by
    have hkeep := hv.keepTags tags
    unfold Visitor.walkTags
    generalize v.keepTags = keep, w.keepTags = keep' at hkeep ⊢
    cases hkeep with
    | none => exact (Visit.ErasesTo.forM hv.walkTag tags).bind fun _ => .pure tags
    | some h => exact h
  unfold Visitor.inTags
  exact .node_bind fun n => ((hwalk (get n)).part _ _).bind fun _ => .setNode _

lemma walkField : v.walkField.ErasesTo π w.walkField := by
  unfold Visitor.walkField
  exact ((hv.visitField.around (hv.inTags _ _) hv.endVisitField).inFrame _ _).bind fun _ => .pure ()

lemma walkParameter : v.walkParameter.ErasesTo π w.walkParameter := by
  unfold Visitor.walkParameter
  exact ((hv.visitParameter.around (.pure ()) hv.endVisitParameter).inFrame _ _).bind
    fun _ => .pure ()

lemma inParameters : v.inParameters.ErasesTo π w.inParameters := by
  unfold Visitor.inParameters
  exact .node_bind fun m => hv.walkParameter.each.part _ _

lemma inBody : v.inBody.ErasesTo (Prod.map π id) w.inBody := by
  unfold Visitor.inBody
  refine .node_bind fun m => ?_
  cases m.body with
  | none => exact .pure ()
  | some body => exact hv.walkBody.zoom (fun _ => rfl) fun _ _ => rfl

lemma walkMethod : v.walkMethod.ErasesTo (Prod.map π id) w.walkMethod := by
  have hparts : v.inMethod.ErasesTo (Prod.map π id) w.inMethod := by
    unfold Visitor.inMethod
    exact (hv.inTags _ _).beside.bind fun _ => hv.inParameters.beside.bind fun _ => hv.inBody
  unfold Visitor.walkMethod
  exact ((hv.visitMethod.beside.around hparts hv.endVisitMethod.beside).inFrame _ _).bind
    fun _ => .pure ()

lemma inType : v.inType.ErasesTo π w.inType := by
  have hfields : v.inFields.ErasesTo π w.inFields := by
    unfold Visitor.inFields
    exact .node_bind fun t => hv.walkField.each.part _ _
  have hmethods : v.inMethods.ErasesTo π w.inMethods := by
    unfold Visitor.inMethods
    exact .node_bind fun t => hv.walkMethod.each.zoom (fun _ => rfl) fun _ _ => rfl
  unfold Visitor.inType
  exact (hv.inTags _ _).bind fun _ => hfields.bind fun _ => hmethods

/-- The walk over a type erases, as all its parts do. -/
lemma walkType : v.walkType.ErasesTo π w.walkType := by
  have henclosed (id : TypeId) {x : Visit τ DeclaredType Unit} {y : Visit σ DeclaredType Unit}
      (hx : x.ErasesTo π y) : (enclosedBy id x).ErasesTo π (enclosedBy id y) := by
    unfold enclosedBy
    exact Visit.ErasesTo.context.bind fun _ => (Visit.ErasesTo.mapContext _).bind fun _ =>
      hx.bind fun _ => .mapContext _
  unfold Visitor.walkType
  exact .node_bind fun t => ((henclosed _ (hv.visitType.around hv.inType hv.endVisitType)).inFrame
    _ _).bind fun _ => .pure ()

/-- The walk over a program is the same without the further state. -/
theorem walkProgram : v.walkProgram.ErasesTo π w.walkProgram := by
  unfold Visitor.walkProgram
  exact .node_bind fun p => hv.walkType.each.part _ _

end Visitor.ErasesTo
end DeclIR
