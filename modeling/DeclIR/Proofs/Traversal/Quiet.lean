import DeclIR.Proofs.Code.Walked
import DeclIR.Proofs.Traversal.Conduct
import DeclIR.Proofs.Traversal.Observation
import Mathlib.Data.List.Forall2

/-!
# Traversals without a report

If a visitor leaves its nodes as they are, a traversal after which nothing counts as changed has
requested no edit, so that no statement, expression or variable differs.  What can differ all the
same are the annotations: a list that the visitor returns is put into its place without a note.

`Visit.Quietly` says what a visit does if it succeeds and nothing counts as changed afterwards.
-/

namespace DeclIR

open Visit

variable {σ κ ε ν μ α β : Type}

/-! ## Programs with other annotations -/

/-- The field with other annotations, which are related to those before. -/
def Field.Retagged (R : List Tag → List Tag → Prop) (f g : Field) : Prop :=
  ∃ tags, R f.tags tags ∧ g = { f with tags }

/-- The method with other annotations, which are related to those before. -/
def Method.Retagged (R : List Tag → List Tag → Prop) (m n : Method) : Prop :=
  ∃ tags, R m.tags tags ∧ n = { m with tags }

/-- The type with other annotations of its own, of its fields and of its methods. -/
def DeclaredType.Retagged (R : List Tag → List Tag → Prop) (t u : DeclaredType) : Prop :=
  ∃ tags fields methods, R t.tags tags ∧ t.fields.Forall₂ (Field.Retagged R) fields ∧
    t.methods.Forall₂ (Method.Retagged R) methods ∧ u = { t with tags, fields, methods }

/-- The program with other annotations. -/
def Program.Retagged (R : List Tag → List Tag → Prop) (p q : Program) : Prop :=
  p.types.Forall₂ (DeclaredType.Retagged R) q.types

section Retagged

variable {R : List Tag → List Tag → Prop}

lemma forall₂_refl {S : α → α → Prop} (h : ∀ a, S a a) (l : List α) : l.Forall₂ S l :=
  List.forall₂_same.mpr fun a _ => h a

lemma Field.Retagged.refl (hR : ∀ tags, R tags tags) (f : Field) : f.Retagged R f :=
  ⟨f.tags, hR _, rfl⟩

lemma Method.Retagged.refl (hR : ∀ tags, R tags tags) (m : Method) : m.Retagged R m :=
  ⟨m.tags, hR _, rfl⟩

lemma DeclaredType.Retagged.refl (hR : ∀ tags, R tags tags) (t : DeclaredType) : t.Retagged R t :=
  ⟨t.tags, t.fields, t.methods, hR _, forall₂_refl (.refl hR) _, forall₂_refl (.refl hR) _, rfl⟩

/-- Lists whose items are related by equality are equal. -/
lemma eq_of_forall₂ {S : α → α → Prop} (h : ∀ a b, S a b → b = a) {l l' : List α}
    (hl : l.Forall₂ S l') : l' = l :=
  (List.forall₂_eq_eq_eq ▸ hl.imp fun a b hab => (h a b hab).symm : l = l').symm

/-- A program with the same annotations is the same program. -/
lemma Program.Retagged.eq (hR : ∀ tags tags', R tags tags' → tags' = tags) {p q : Program}
    (h : p.Retagged R q) : q = p := by
  have hfield (f g : Field) : f.Retagged R g → g = f := by
    rintro ⟨tags, htags, rfl⟩
    rw [hR _ _ htags]
  have hmethod (m n : Method) : m.Retagged R n → n = m := by
    rintro ⟨tags, htags, rfl⟩
    rw [hR _ _ htags]
  have htype (t u : DeclaredType) : t.Retagged R u → u = t := by
    rintro ⟨tags, fields, methods, htags, hfields, hmethods, rfl⟩
    rw [hR _ _ htags, eq_of_forall₂ hfield hfields, eq_of_forall₂ hmethod hmethods]
  exact congrArg Program.mk (eq_of_forall₂ htype h)

end Retagged

/-! ## Quiet visits -/

/-- If the visit succeeds and nothing counts as changed afterwards, then the context is as it was,
so is what `view` shows of the own state, and the relation holds of the node before, the result and
the node after. -/
def Visit.Quietly (view : σ → κ) (R : ν → α → ν → Prop) (w : Visit σ ν α) : Prop :=
  ∀ s a t, w s = .ok a t → t.context.changed = false →
    t.context = s.context ∧ view t.own = view s.own ∧ R s.node a t.node

namespace Visit.Quietly

variable {view : σ → κ}

/-- A quiet walk may be described by any coarser relation. -/
lemma weaken {R S : ν → α → ν → Prop} {w : Visit σ ν α} (hw : w.Quietly view R)
    (h : ∀ n a n', R n a n' → S n a n') : w.Quietly view S := by
  intro s a t hrun hquiet
  obtain ⟨hcontext, hview, hR⟩ := hw s a t hrun hquiet
  exact ⟨hcontext, hview, h _ _ _ hR⟩

lemma pure {R : ν → α → ν → Prop} {a : α} (h : ∀ n, R n a n) :
    (pure a : Visit σ ν α).Quietly view R := by
  intro s a t hrun _
  cases hrun
  exact ⟨rfl, rfl, h _⟩

lemma node : (node : Visit σ ν ν).Quietly view fun n a n' => a = n ∧ n' = n := by
  intro s a t hrun _
  cases hrun
  exact ⟨rfl, rfl, rfl, rfl⟩

lemma setNode (n' : ν) : (setNode n' : Visit σ ν Unit).Quietly view fun _ _ n => n = n' := by
  intro s a t hrun _
  cases hrun
  exact ⟨rfl, rfl, rfl⟩

/-- Quietness goes through a sequence, the relation being the composition of its steps. -/
lemma bind {R : ν → α → ν → Prop} {S : α → ν → β → ν → Prop} {w : Visit σ ν α}
    {f : α → Visit σ ν β} (hw : w.Quietly view R) (hf : ∀ a, (f a).Quietly view (S a)) :
    (w >>= f).Quietly view fun n b n' => ∃ a m, R n a m ∧ S a m b n' := by
  intro s b u hrun hquiet
  obtain ⟨a, t, hw', hf'⟩ := bind_eq_ok_iff.mp hrun
  -- From the end to the start: only the last context is known not to count as changed.
  obtain ⟨hcontext, hview, hS⟩ := hf a t b u hf' hquiet
  obtain ⟨hcontext', hview', hR⟩ := hw s a t hw' (hcontext ▸ hquiet)
  exact ⟨hcontext.trans hcontext', hview.trans hview', a, t.node, hR, hS⟩

/-- A visit that first reads the node may use what it is. -/
lemma node_bind {R : ν → β → ν → Prop} {f : ν → Visit σ ν β}
    (hf : ∀ n, (f n).Quietly view fun m b n' => m = n → R n b n') :
    (Visit.node >>= f).Quietly view R := by
  intro s b u hrun hquiet
  obtain ⟨hcontext, hview, hR⟩ := hf s.node s b u hrun hquiet
  exact ⟨hcontext, hview, hR rfl⟩

/-- A node that is left quietly is left without edits. -/
lemma inFrame {R : ν → ν → Prop} {w : Visit σ ν Unit} (hw : w.Quietly view fun n _ n' => R n n')
    (kind : NodeKind) (slot : Slot) :
    (inFrame kind slot w).Quietly view fun n frame? n' =>
      frame? = some { kind, slot } ∧ R n n' := by
  intro s frame? u hrun hquiet
  obtain ⟨t, hw', rfl, rfl⟩ := inFrame_eq_ok_iff.mp hrun
  obtain ⟨hcontext, hview, hR⟩ := hw _ _ t hw' hquiet
  simp only [hcontext]
  exact ⟨Context.leave_enter .., hview, rfl, hR⟩

lemma inFrame_discard {R : ν → ν → Prop} {w : Visit σ ν Unit}
    (hw : w.Quietly view fun n _ n' => R n n') (kind : NodeKind) (slot : Slot) :
    (do let _ ← Visit.inFrame kind slot w).Quietly view fun n _ n' => R n n' := by
  refine ((hw.inFrame kind slot).bind fun _ => pure (R := fun n _ n' => n' = n)
    fun _ => rfl).weaken ?_
  rintro _ _ _ ⟨_, _, ⟨-, hR⟩, rfl⟩
  exact hR

/-- Quietness goes through the hook pair of a node, the hooks themselves leaving the node alone. -/
lemma around {R : ν → ν → Prop} (hrefl : ∀ n, R n n) {pre : Visit σ ν Bool}
    {parts post : Visit σ ν Unit} (hpre : pre.Quietly view fun n _ n' => n' = n)
    (hparts : parts.Quietly view fun n _ n' => R n n')
    (hpost : post.Quietly view fun n _ n' => n' = n) :
    (around pre parts post).Quietly view fun n _ n' => R n n' := by
  unfold Visit.around
  refine (hpre.bind (S := fun _ n _ n' => R n n') fun descend => ?_).weaken ?_
  · cases descend with
    | false =>
      refine hpost.weaken ?_
      rintro _ _ n rfl
      exact hrefl n
    | true =>
      refine (hparts.bind fun _ => hpost).weaken ?_
      rintro n _ _ ⟨_, m, hR, rfl⟩
      exact hR
  · rintro n _ n' ⟨_, _, rfl, hR⟩
    exact hR

lemma enclosedBy {R : ν → ν → Prop} {w : Visit σ ν Unit}
    (hw : w.Quietly view fun n _ n' => R n n') (id : TypeId) :
    (Visitor.enclosedBy id w).Quietly view fun n _ n' => R n n' := by
  intro s a u hrun hquiet
  unfold Visitor.enclosedBy at hrun
  obtain ⟨outer, _, ⟨⟩, hrun'⟩ := bind_eq_ok_iff.mp hrun
  obtain ⟨_, _, ⟨⟩, hrun''⟩ := bind_eq_ok_iff.mp hrun'
  obtain ⟨_, t, hinner, ⟨⟩⟩ := bind_eq_ok_iff.mp hrun''
  obtain ⟨hcontext, hview, hR⟩ := hw _ _ t hinner hquiet
  refine ⟨?_, hview, hR⟩
  show { t.context with enclosingType := s.context.enclosingType } = s.context
  rw [hcontext]

/-- A quiet walk over a part changes the node in that part alone. -/
lemma part {R : μ → α → μ → Prop} {w : Visit σ μ α} (hw : w.Quietly view R) (x : μ) (put : μ → ν) :
    (part x put w).Quietly view fun _ a n' => ∃ y, R x a y ∧ n' = put y := by
  intro s a u hrun hquiet
  obtain ⟨t, hw', rfl⟩ := zoom_eq_ok_iff.mp hrun
  obtain ⟨hcontext, hview, hR⟩ := hw _ _ _ hw' hquiet
  exact ⟨hcontext, hview, t.node, hR, rfl⟩

/-- Nothing happens to the further state that a visit does not know of. -/
lemma beside {R : ν → α → ν → Prop} {w : Visit σ ν α} (hw : w.Quietly (fun _ => ()) R) :
    (beside w : Visit (σ × ε) ν α).Quietly Prod.snd R := by
  intro s a u hrun hquiet
  obtain ⟨t, hw', rfl⟩ := zoom_eq_ok_iff.mp hrun
  obtain ⟨hcontext, -, hR⟩ := hw _ _ _ hw' hquiet
  exact ⟨hcontext, rfl, hR⟩

/-- Each element becomes one that is related to it. -/
lemma eachSegment {R : μ → μ → Prop} {w : Visit σ μ (List μ)}
    (hw : w.Quietly view fun x segment _ => ∃ y, segment = [y] ∧ R x y) :
    (eachSegment w).Quietly view fun l _ l' => l.Forall₂ R l' := by
  have hlist (l : List μ) (c : Context) (own : σ) (t : Site σ (List μ))
      (hrun : eachOf w l c own = .ok () t) (hquiet : t.context.changed = false) :
      t.context = c ∧ view t.own = view own ∧ l.Forall₂ R t.node := by
    induction l generalizing c own t with
    | nil =>
      cases hrun
      exact ⟨rfl, rfl, .nil⟩
    | cons x rest ih =>
      obtain ⟨segment, s, t, hx, hrest, rfl⟩ := eachOf_cons_eq_ok_iff.mp hrun
      obtain ⟨hcontext, hview, hR⟩ := ih _ _ _ hrest hquiet
      obtain ⟨hcontext', hview', y, rfl, hxy⟩ := hw _ _ _ hx (hcontext ▸ hquiet)
      exact ⟨hcontext.trans hcontext', hview.trans hview', .cons hxy hR⟩
  intro s a t hrun hquiet
  exact hlist s.node s.context s.own t hrun hquiet

/-- A quiet walk over each item relates the lists item by item. -/
lemma each {R : μ → μ → Prop} {w : Visit σ μ Unit} (hw : w.Quietly view fun x _ y => R x y) :
    (each w).Quietly view fun l _ l' => l.Forall₂ R l' := by
  unfold Visit.each
  refine eachSegment ((hw.bind fun _ => node.bind fun y => pure (R := fun _ a _ => a = [y])
    fun _ => rfl).weaken ?_)
  rintro x segment _ ⟨_, y, hR, _, _, ⟨rfl, -⟩, rfl⟩
  exact ⟨_, rfl, hR⟩

lemma forM {w : μ → Visit σ ν Unit} (hw : ∀ x, (w x).Quietly view fun n _ n' => n' = n)
    (list : List μ) : (list.forM w).Quietly view fun n _ n' => n' = n := by
  induction list with
  | nil => exact pure fun _ => rfl
  | cons x rest ih =>
    refine ((hw x).bind fun _ => ih).weaken ?_
    rintro n _ _ ⟨_, _, rfl, rfl⟩
    rfl

end Visit.Quietly

/-! ## Quiet walks -/

/-- The visitor keeps the annotations, or returns others without noting a change. -/
def Visitor.Returns (v : Visitor σ) (tags tags' : List Tag) : Prop :=
  tags' = tags ∨ ∃ keep s t, v.keepTags = some keep ∧ keep tags s = .ok tags' t ∧
    t.context = s.context

/-- A hook that leaves its node as it is and succeeds has not done anything if nothing counts as
changed afterwards. -/
structure Visitor.Quiet (v : Visitor σ) : Prop where
  hooks : v.Hooks fun _ _ _ _ w => w.Quietly (fun _ => ()) fun n _ n' => n' = n
  keepTags : ∀ keep tags, v.keepTags = some keep →
    (keep tags).Quietly (fun _ => ()) fun _ tags' _ => v.Returns tags tags'

/-- A visitor that acts by a conduct and spares the declarations is quiet: a change to a node that
it makes sets the flag. -/
lemma Visitor.ActsBy.quiet {v : Visitor σ} {a : Conduct σ} (hv : v.ActsBy a) (hs : v.Spares) :
    v.Quiet where
  hooks := by
    refine .imp₂ ?_ hv.hooks hs
    intro ν α phase x w hcontext hnode s b t hrun hquiet
    have hcontext := hcontext s
    have hnode := hnode s
    rw [after_of_ok hrun] at hcontext hnode
    rw [hcontext] at hquiet ⊢
    exact ⟨Context.performAll_of_changed hquiet, rfl, hnode⟩
  keepTags keep tags hkeep := by
    intro s tags' t hrun hquiet
    have hcontext := hv.keepTags keep tags hkeep s
    rw [after_of_ok hrun] at hcontext
    have hsame : t.context = s.context := by
      rw [hcontext] at hquiet ⊢
      exact Context.performAll_of_changed hquiet
    exact ⟨hsame, rfl, .inr ⟨keep, s, t, hkeep, hrun, hsame⟩⟩

namespace Visitor.Quiet

variable {v : Visitor σ} (hv : v.Quiet)
include hv

/-! ### Code -/

/-- At every depth a quiet walk of an expression that leaves the flag unset leaves the expression.
-/
lemma walkExprWithin (k : Nat) :
    (v.walkExprWithin k).Quietly (fun _ => ()) fun e _ e' => e' = e := by
  induction k with
  | zero => exact .pure fun _ => rfl
  | succ k ih =>
    have hparts : (inOperands (v.walkExprWithin k)).Quietly (fun _ => ()) fun e _ e' => e' = e := by
      unfold inOperands
      refine .node_bind fun e => ?_
      cases e with
      | instanceField info f receiver =>
        refine (ih.part receiver _).weaken ?_
        rintro _ _ _ ⟨_, rfl, rfl⟩ -
        rfl
      -- The left operand is put back first, and the right one into what this leaves.
      | binary info op lhs rhs =>
        refine (((ih.bind fun _ => .node).part lhs _).bind fun lhs => ih.part rhs _).weaken ?_
        rintro _ _ _ ⟨_, _, ⟨_, ⟨_, _, rfl, rfl, rfl⟩, -⟩, _, rfl, rfl⟩ -
        rfl
      | _ => exact .pure fun _ h => h
    unfold Visitor.walkExprWithin
    refine .node_bind fun e => ?_
    -- The frame is left as it was entered, so what is put back is the expression itself.
    refine ((Quietly.around (R := fun e e' => e' = e) (fun _ => rfl) hv.hooks.visitExpr hparts
      hv.hooks.endVisitExpr).inFrame _ _ |>.bind (S := fun frame? n _ n' =>
        frame? = some { kind := e.kind, slot := .expression } → n' = n) fun frame? => ?_).weaken ?_
    · cases frame? with
      | none => exact .pure fun _ _ => rfl
      | some frame =>
        refine .node_bind fun e => (Quietly.setNode _).weaken ?_
        rintro _ _ _ rfl - ⟨⟩
        rfl
    · rintro _ _ _ ⟨_, _, ⟨hframe, rfl⟩, hnode⟩ rfl
      exact hnode hframe

lemma walkExpr : v.walkExpr.Quietly (fun _ => ()) fun e _ e' => e' = e := by
  unfold Visitor.walkExpr
  refine .node_bind fun e => (hv.walkExprWithin _).weaken ?_
  rintro _ _ _ rfl rfl
  rfl

lemma walkInitializer : v.walkInitializer.Quietly (fun _ => ()) fun d _ d' => d' = d := by
  unfold Visitor.walkInitializer
  refine .node_bind fun d => ?_
  cases hd : d.base.declaration with
  | none => exact .pure fun _ h => h
  | some x =>
    refine (hv.walkExpr.part x.initializer _).weaken ?_
    rintro _ _ _ ⟨_, rfl, rfl⟩ -
    exact Declared.declare_self hd

/-- The walk at a declaration leaves statement and scope where the flag stays unset. -/
lemma walkDeclaration (info : Provenance) (slot : VarSlot) :
    (v.walkDeclaration info slot).Quietly Prod.snd fun x _ x' => x' = x := by
  intro s a u hrun hquiet
  unfold Visitor.walkDeclaration at hrun
  obtain ⟨_, _, ⟨⟩, hrun⟩ := bind_eq_ok_iff.mp hrun
  cases hd : s.own.2.resolve? slot with
  | none => simp [hd] at hrun
  | some d =>
    simp only [hd] at hrun
    obtain ⟨t, hanchor, rfl⟩ := zoom_eq_ok_iff.mp hrun
    obtain ⟨hcontext, -, hnode⟩ := Quietly.around (R := fun d d' => d' = d) (fun _ => rfl)
      (hv.hooks.visitDeclaration slot info) hv.walkInitializer
      (hv.hooks.endVisitDeclaration slot info) _ _ _ hanchor hquiet
    refine ⟨hcontext, ?_, rfl⟩
    simp only [hnode]
    exact Scope.store_resolve hd

section Parts

variable {w : Visit (σ × Scope) Stmt Unit} (hw : w.Quietly Prod.snd fun x _ x' => x' = x)
include hw

omit hv in
/-- A run over a statement list that leaves the flag unset has left the list, since each edit sets
it. -/
lemma eachStmt : (eachStmt w).Quietly Prod.snd fun l _ l' => l' = l := by
  unfold Visitor.eachStmt
  refine (Quietly.eachSegment (R := Eq) (.node_bind fun x => ?_)).weaken ?_
  · -- Without a request the frame keeps the statement, and nothing is put in front of it or behind.
    refine ((hw.inFrame x.kind .statement).bind (S := fun frame? n segment _ =>
      frame? = some { kind := x.kind, slot := .statement } → segment = [n]) fun frame? => ?_).weaken
        ?_
    · cases frame? with
      | none => exact .node_bind fun _ => .pure fun _ _ _ => rfl
      | some frame =>
        refine .node_bind fun n => .pure fun _ _ => ?_
        rintro ⟨⟩
        rfl
    · rintro _ segment _ ⟨_, _, ⟨hframe, rfl⟩, hsegment⟩ rfl
      exact ⟨_, hsegment hframe, rfl⟩
  · intro l _ l' h
    exact (List.forall₂_eq_eq_eq ▸ h : l = l').symm

lemma walkBlockBy : (v.walkBlockBy w).Quietly Prod.snd fun b _ b' => b' = b := by
  have hparts : (inBlock w).Quietly Prod.snd fun b _ b' => b' = b := by
    unfold inBlock
    refine .node_bind fun b => ((eachStmt hw).part b.stmts _).weaken ?_
    rintro _ _ _ ⟨_, rfl, rfl⟩ -
    rfl
  unfold Visitor.walkBlockBy
  exact .around (R := fun b b' => b' = b) (fun _ => rfl) (.beside hv.hooks.visitBlock) hparts
    (.beside hv.hooks.endVisitBlock)

lemma walkFixedBlockBy : (v.walkFixedBlockBy w).Quietly Prod.snd fun b _ b' => b' = b := by
  unfold Visitor.walkFixedBlockBy
  exact (hv.walkBlockBy hw).inFrame_discard (R := fun b b' => b' = b) _ _

lemma inStmt : (v.inStmt w).Quietly Prod.snd fun x _ x' => x' = x := by
  have hexpr : (beside v.walkExpr : Visit (σ × Scope) Expr Unit).Quietly Prod.snd
      fun e _ e' => e' = e := .beside hv.walkExpr
  have hblock := hv.walkFixedBlockBy hw
  unfold Visitor.inStmt
  refine .node_bind fun x => ?_
  cases x with
  | declare info slot => exact .pure fun _ h => h
  | block b => exact .pure fun _ h => h
  | eval info e =>
    refine (hexpr.part e _).weaken ?_
    rintro _ _ _ ⟨_, rfl, rfl⟩ -
    rfl
  | ret info value =>
    cases value with
    | none => exact .pure fun _ h => h
    | some e =>
      refine (hexpr.part e _).weaken ?_
      rintro _ _ _ ⟨_, rfl, rfl⟩ -
      rfl
  | branch info cond onTrue onFalse =>
    have hcond := (hexpr.bind fun _ => .node).part cond (Stmt.branch info · onTrue onFalse)
    have honTrue (cond : Expr) :=
      (hblock.bind fun _ => .node).part onTrue (Stmt.branch info cond · onFalse)
    -- The condition and both branches are put back one after the other, each into the statement
    -- that is there by then, so each step assumes that the statement is still the one before.
    refine (hcond.bind (S := fun cond x _ x' => x = .branch info cond onTrue onFalse → x' = x)
      fun cond => ?_).weaken ?_
    · refine ((honTrue cond).bind (S := fun onTrue x _ x' =>
        x = .branch info cond onTrue onFalse → x' = x) fun onTrue => ?_).weaken ?_
      · cases onFalse with
        | none => exact .pure fun _ _ => rfl
        | some b =>
          refine (hblock.part b _).weaken ?_
          rintro _ _ _ ⟨_, rfl, rfl⟩ rfl
          rfl
      · rintro _ _ _ ⟨_, _, ⟨_, ⟨_, _, rfl, rfl, rfl⟩, rfl⟩, hnode⟩ rfl
        exact hnode rfl
    · rintro _ _ _ ⟨_, _, ⟨_, ⟨_, _, rfl, rfl, rfl⟩, rfl⟩, hnode⟩ rfl
      exact hnode rfl

end Parts

/-- At every depth of nesting a quiet walk of a statement leaves it and its scope. -/
lemma walkStmtWithin (k : Nat) :
    (v.walkStmtWithin k).Quietly Prod.snd fun x _ x' => x' = x := by
  induction k with
  | zero => exact .pure fun _ => rfl
  | succ k ih =>
    have hstmt := Quietly.around (R := fun x x' => x' = x) (fun _ => rfl)
      (.beside hv.hooks.visitStmt) (hv.inStmt ih) (.beside hv.hooks.endVisitStmt)
    unfold Visitor.walkStmtWithin
    refine .node_bind fun x => ?_
    cases x with
    | declare info slot => exact (hv.walkDeclaration info slot).weaken fun _ _ _ h e => h.trans e
    | block b =>
      refine ((hv.walkBlockBy ih).part b _).weaken ?_
      rintro _ _ _ ⟨_, rfl, rfl⟩ -
      rfl
    | _ => exact hstmt.weaken fun _ _ _ h e => h.trans e

lemma walkBody : v.walkBody.Quietly Prod.snd fun b _ b' => b' = b := by
  unfold Visitor.walkBody
  refine .node_bind fun b => (hv.walkFixedBlockBy (hv.walkStmtWithin _)).weaken ?_
  rintro _ _ _ rfl rfl
  rfl

/-! ### Declarations -/

lemma walkTag (t : Tag) : (v.walkTag t).Quietly (fun _ => ()) fun n _ n' => n' = n := by
  unfold Visitor.walkTag
  exact .inFrame_discard (R := fun n n' => n' = n) (.around (fun _ => rfl) (hv.hooks.visitTag t)
    (.pure fun _ => rfl) (hv.hooks.endVisitTag t)) _ _

/-- Annotations alone are stored without the flag: what the hook returns for them replaces the list.
-/
lemma inTags {get : ν → List Tag} {put : ν → List Tag → ν} :
    (v.inTags get put).Quietly (fun _ => ()) fun n _ n' =>
      ∃ tags, v.Returns (get n) tags ∧ n' = put n tags := by
  have hwalk (tags : List Tag) : (v.walkTags tags).Quietly (fun _ => ()) fun _ tags' _ =>
      v.Returns tags tags' := by
    unfold Visitor.walkTags
    cases hkeep : v.keepTags with
    | none =>
      refine ((Quietly.forM hv.walkTag tags).bind fun _ => .pure (R := fun _ a _ => a = tags)
        fun _ => rfl).weaken ?_
      rintro _ _ _ ⟨_, _, -, rfl⟩
      exact .inl rfl
    | some keep => exact hv.keepTags keep tags hkeep
  unfold Visitor.inTags
  refine .node_bind fun n => (((hwalk (get n)).part () _).bind fun tags =>
    .setNode (put n tags)).weaken ?_
  rintro _ _ _ ⟨tags, _, ⟨_, htags, -⟩, rfl⟩ rfl
  exact ⟨tags, htags, rfl⟩

/-- A quiet walk of a field retags it at most. -/
lemma walkField :
    v.walkField.Quietly (fun _ => ()) fun f _ f' => f.Retagged v.Returns f' := by
  unfold Visitor.walkField
  exact .inFrame_discard (.around (Field.Retagged.refl fun _ => .inl rfl) hv.hooks.visitField
    hv.inTags hv.hooks.endVisitField) _ _

lemma inParameters : v.inParameters.Quietly (fun _ => ()) fun m _ m' => m' = m := by
  have hwalk : v.walkParameter.Quietly (fun _ => ()) fun p _ p' => p = p' := by
    unfold Visitor.walkParameter
    exact .inFrame_discard (.around (fun _ => rfl) hv.hooks.visitParameter (.pure fun _ => rfl)
      hv.hooks.endVisitParameter) _ _
  unfold Visitor.inParameters
  refine .node_bind fun m => (hwalk.each.part m.parameters _).weaken ?_
  rintro _ _ _ ⟨parameters, hsame, rfl⟩ -
  rw [List.forall₂_eq_eq_eq] at hsame
  rw [← hsame]

lemma inBody : v.inBody.Quietly Prod.snd fun m _ m' => m' = m := by
  unfold Visitor.inBody
  refine .node_bind fun m => ?_
  cases hbody : m.body with
  | none => exact .pure fun _ h => h
  | some body =>
    intro s a u hrun hquiet
    obtain ⟨t, hrun', rfl⟩ := zoom_eq_ok_iff.mp hrun
    obtain ⟨hcontext, hscope, hnode⟩ := hv.walkBody _ _ _ hrun' hquiet
    refine ⟨hcontext, by simp only [hscope], ?_⟩
    rintro rfl
    simp only [hscope, hnode, ← hbody]

/-- A method keeps its code and its variables, and so do the fields of the type around it. -/
lemma walkMethod :
    v.walkMethod.Quietly Prod.snd fun m _ m' => m.Retagged v.Returns m' := by
  have hparts : v.inMethod.Quietly Prod.snd fun m _ m' => m.Retagged v.Returns m' := by
    unfold Visitor.inMethod
    refine ((Quietly.beside hv.inTags).bind fun _ => (Quietly.beside hv.inParameters).bind
      fun _ => hv.inBody).weaken ?_
    rintro m _ _ ⟨_, _, hm, _, _, rfl, rfl⟩
    exact hm
  unfold Visitor.walkMethod
  exact .inFrame_discard (.around (Method.Retagged.refl fun _ => .inl rfl)
    (.beside hv.hooks.visitMethod) hparts (.beside hv.hooks.endVisitMethod)) _ _

/-- A quiet walk of the fields retags them at most. -/
lemma inFields : v.inFields.Quietly (fun _ => ()) fun t _ t' =>
    ∃ fields, t.fields.Forall₂ (Field.Retagged v.Returns) fields ∧ t' = { t with fields } := by
  unfold Visitor.inFields
  refine .node_bind fun t => (hv.walkField.each.part t.fields _).weaken ?_
  rintro _ _ _ ⟨fields, hfields, rfl⟩ -
  exact ⟨fields, hfields, rfl⟩

/-- A quiet walk of the methods retags them at most. -/
lemma inMethods : v.inMethods.Quietly (fun _ => ()) fun t _ t' =>
    ∃ methods, t.methods.Forall₂ (Method.Retagged v.Returns) methods ∧
      t' = { t with methods } := by
  unfold Visitor.inMethods
  refine .node_bind fun t => ?_
  intro s a u hrun hquiet
  obtain ⟨r, hrun', rfl⟩ := zoom_eq_ok_iff.mp hrun
  obtain ⟨hcontext, hfields, hmethods⟩ := hv.walkMethod.each _ _ _ hrun' hquiet
  refine ⟨hcontext, rfl, fun _ => ⟨r.node, hmethods, ?_⟩⟩
  simp only [hfields]

/-- A quiet walk of a type retags it and its members at most. -/
lemma walkType :
    v.walkType.Quietly (fun _ => ()) fun t _ t' => t.Retagged v.Returns t' := by
  have hparts : v.inType.Quietly (fun _ => ()) fun t _ t' => t.Retagged v.Returns t' := by
    unfold Visitor.inType
    refine (hv.inTags.bind fun _ => hv.inFields.bind fun _ => hv.inMethods).weaken ?_
    rintro t _ _ ⟨_, _, ⟨tags, htags, rfl⟩, _, _, ⟨fields, hfields, rfl⟩, methods, hmethods, rfl⟩
    exact ⟨tags, fields, methods, htags, hfields, hmethods, rfl⟩
  unfold Visitor.walkType
  refine .node_bind fun t => ((Quietly.around (DeclaredType.Retagged.refl fun _ => .inl rfl)
    hv.hooks.visitType hparts hv.hooks.endVisitType).enclosedBy t.id |>.inFrame_discard _ _).weaken
      ?_
  rintro _ _ _ h rfl
  exact h

/-- A quiet walk of a program retags its types at most. -/
lemma walkProgram :
    v.walkProgram.Quietly (fun _ => ()) fun p _ p' => p.Retagged v.Returns p' := by
  unfold Visitor.walkProgram
  refine .node_bind fun p => (hv.walkType.each.part p.types _).weaken ?_
  rintro _ _ _ ⟨types, htypes, rfl⟩ -
  exact htypes

end Visitor.Quiet

/-- A traversal that succeeds and after which nothing counts as changed has changed at most
annotations, where the visitor returned other ones.  If it returned no other ones, the program is
what it was before. -/
theorem Program.traverse_unchanged {v : Visitor σ} {a : Conduct σ} (hv : v.ActsBy a)
    (hs : v.Spares) (p : Program) (own : σ) {s : Site σ Program}
    (hrun : p.traverse v own = .ok () s) (hquiet : s.context.changed = false) :
    p.Retagged v.Returns s.node ∧
      ((∀ tags tags', v.Returns tags tags' → tags' = tags) → s.node = p) := by
  have hp : p.Retagged v.Returns s.node := ((hv.quiet hs).walkProgram _ _ _ hrun hquiet).2.2
  exact ⟨hp, fun hreturns => hp.eq hreturns⟩

/-- Removes the statements that return nothing, and all annotations. -/
def Visitor.sweeping : Visitor Unit where
  keepTags := some fun _ => pure []
  endVisitStmt := do
    if let .ret _ none := ← node then
      request .removeStmt

/-- What that visitor does to the context. -/
def Conduct.sweeping : Conduct Unit where
  hook
    | .post, .stmt (.ret _ none), _, _ => [.ask .removeStmt]
    | _, _, _, _ => []
  tags _ _ _ := []

/-- The sweeping visitor acts by the conduct of its name. -/
lemma Visitor.sweeping_actsBy : sweeping.ActsBy .sweeping where
  hooks := by
    constructor
    case endVisitStmt =>
      -- The hook for the end of a statement is the only one that requests anything.
      rintro ⟨x, c, own⟩
      cases x with
      | ret info value =>
        cases value with
        | none => exact performs_request _ ⟨_, c, own⟩
        | some e => rfl
      | _ => rfl
    all_goals
      intros
      intro s
      rfl
  keepTags := by
    rintro _ tags ⟨⟩ s
    rfl

lemma Visitor.sweeping_spares : sweeping.Spares := by
  constructor
  -- A request is noted in the frame, and the node is not touched.
  case endVisitStmt =>
    rintro ⟨x, c, own⟩
    cases x with
    | ret info value =>
      cases value with
      | none =>
        show ((request .removeStmt).after _).node = _
        unfold after
        rw [request_apply]
        cases Context.request c .removeStmt <;> rfl
      | some e => rfl
    | _ => rfl
  all_goals
    intros
    rfl

/-- A class with an annotation, which has a field with an annotation, and a method that returns a
value. -/
def Program.annotated : Program :=
  let tags : List Tag := [⟨.synthetic, "A"⟩]
  let t := (DeclaredType.new .synthetic 0 "C" .classType none).insertField
    { Field.new .synthetic (.ofChar 'x') 0 (.primitive .int) true .plain with tags }
  let get : Method :=
    { DeclaredType.emptyInitializer .synthetic 0 true with
      name := "get"
      body := some ⟨.synthetic, [.ret .synthetic (some (.staticField .synthetic ⟨0, 0⟩))]⟩ }
  ⟨[{ t with tags, methods := t.methods ++ [get] }]⟩

/-- The sweeping visitor empties an annotation list, and the flag stays unset. -/
lemma Program.traverse_sweeping_annotated :
    ∃ s, annotated.traverse .sweeping () = .ok () s ∧ s.context.changed = false ∧
      s.node.types.map (·.tags) = [[]] :=
  ⟨_, eq_ok_after (w := Visitor.sweeping.walkProgram) (by decide +kernel), by decide +kernel,
    by decide +kernel⟩

/-- The traversal comes to a field, a method and an expression, and requests nothing there. -/
theorem Program.traverse_unchanged_annotated :
    Visitor.sweeping.ActsBy .sweeping ∧ Visitor.sweeping.Spares ∧
      ∃ s, annotated.traverse .sweeping () = .ok () s ∧ s.context.changed = false ∧
        annotated.Retagged Visitor.sweeping.Returns s.node := by
  obtain ⟨s, hrun, hquiet, -⟩ := traverse_sweeping_annotated
  refine ⟨Visitor.sweeping_actsBy, Visitor.sweeping_spares, s, hrun, hquiet, ?_⟩
  exact (annotated.traverse_unchanged Visitor.sweeping_actsBy Visitor.sweeping_spares () hrun
    hquiet).1

/-- The annotations are gone all the same, and nothing counts as changed. -/
theorem Program.traverse_hides_annotated :
    ¬∀ (v : Visitor Unit) (a : Conduct Unit), v.ActsBy a → v.Spares →
      ∀ (p : Program) (s : Site Unit Program), p.traverse v () = .ok () s →
        s.context.changed = false → s.node = p := by
  intro h
  obtain ⟨s, hrun, hquiet, htags⟩ := traverse_sweeping_annotated
  rw [h _ _ Visitor.sweeping_actsBy Visitor.sweeping_spares _ s hrun hquiet] at htags
  exact absurd htags (by decide +kernel)

end DeclIR
