import DeclIR.Proofs.Traversal.Observer
import DeclIR.Proofs.Traversal.Trace

/-!
# Walks of rewriters

A rewriter is a visitor that accepts every node and asks for nothing but replacements of
expressions, when it leaves them.  Its walk turns each expression it comes to into the rewritten
one, and each initializer at its variable's anchor.  It fails at an anchor that does not resolve and
nowhere else (`Visitor.Rewrites.walkType`).

`Turns` says of one visit what it turns the node into and what it does to the trace.  The trace
decides the change flag and the visitor's own state.
-/

namespace DeclIR

open Visit

variable {σ ξ ν μ α β : Type}

/-- Notes a change if there was one. -/
def Context.mark (c : Context) (changed : Bool) : Context :=
  { c with changed := c.changed || changed }

/-- Marking twice is marking by either. -/
lemma Context.mark_mark (c : Context) (a b : Bool) : (c.mark a).mark b = c.mark (a || b) := by
  simp only [mark, Bool.or_assoc]

lemma Context.mark_false (c : Context) : c.mark false = c := by
  simp only [mark, Bool.or_false]

/-- The replacement of an expression, and what is noted about each one offered. -/
structure Rewriter (σ : Type) where
  replacement? : Expr → Option Expr
  note : Expr → σ → σ := fun _ own => own

namespace Rewriter

variable (r : Rewriter σ)

/-- Looks for a replacement of the current expression. -/
def consult : Visit σ Expr Unit := do
  let e ← node
  modify fun s => { s with own := r.note e s.own }
  match r.replacement? e with
  | some e' => request (.replaceExpr e')
  | none => pure ()

/-- Whether one of the expressions has a replacement. -/
def hits (list : List Expr) : Bool := list.any fun e => (r.replacement? e).isSome

/-- What is noted after some expressions. -/
def notes (own : σ) (list : List Expr) : σ := list.foldl (fun own e => r.note e own) own

lemma hits_append (a b : List Expr) : r.hits (a ++ b) = (r.hits a || r.hits b) :=
  List.any_append

lemma hits_singleton (e : Expr) : r.hits [e] = (r.replacement? e).isSome := by
  simp only [hits, List.any_cons, List.any_nil, Bool.or_false]

/-- A list is hit nowhere exactly when none of its expressions has a replacement. -/
lemma hits_eq_false_iff {list : List Expr} :
    r.hits list = false ↔ ∀ e ∈ list, r.replacement? e = none := by
  simp [hits]

/-- What is noted of two lists in a row is noted of the second on top of the first. -/
lemma notes_append (own : σ) (a b : List Expr) :
    r.notes own (a ++ b) = r.notes (r.notes own a) b :=
  List.foldl_append

end Rewriter

/-- A visitor that does nothing but replace expressions when it leaves them. -/
structure Visitor.Rewrites (v : Visitor σ) (r : Rewriter σ) : Prop where
  keepTags : v.keepTags = none
  visitType : v.visitType = pure true
  endVisitType : v.endVisitType = pure ()
  visitField : v.visitField = pure true
  endVisitField : v.endVisitField = pure ()
  visitMethod : v.visitMethod = pure true
  endVisitMethod : v.endVisitMethod = pure ()
  visitParameter : v.visitParameter = pure true
  endVisitParameter : v.endVisitParameter = pure ()
  visitTag : ∀ t, v.visitTag t = pure true
  endVisitTag : ∀ t, v.endVisitTag t = pure ()
  visitBlock : v.visitBlock = pure true
  endVisitBlock : v.endVisitBlock = pure ()
  visitDeclaration : ∀ slot info, v.visitDeclaration slot info = pure true
  endVisitDeclaration : ∀ slot info, v.endVisitDeclaration slot info = pure ()
  visitStmt : v.visitStmt = pure true
  endVisitStmt : v.endVisitStmt = pure ()
  visitExpr : v.visitExpr = pure true
  endVisitExpr : v.endVisitExpr = r.consult

/-- The visitor that replaces expressions when it leaves them and has no other hooks. -/
def Rewriter.visitor (r : Rewriter σ) : Visitor σ where
  endVisitExpr := r.consult

/-- The visitor made of a rewriter rewrites by it. -/
theorem Rewriter.visitor_rewrites (r : Rewriter σ) : r.visitor.Rewrites r where
  keepTags := rfl
  visitType := rfl
  endVisitType := rfl
  visitField := rfl
  endVisitField := rfl
  visitMethod := rfl
  endVisitMethod := rfl
  visitParameter := rfl
  endVisitParameter := rfl
  visitTag _ := rfl
  endVisitTag _ := rfl
  visitBlock := rfl
  endVisitBlock := rfl
  visitDeclaration _ _ := rfl
  endVisitDeclaration _ _ := rfl
  visitStmt := rfl
  endVisitStmt := rfl
  visitExpr := rfl
  endVisitExpr := rfl

namespace Visitor.Rewrites

variable {v : Visitor σ} {r : Rewriter σ}

/-! ## Expressions -/

/-- The frame of an expression that is left holds the replacement, if there is one. -/
lemma walkExprWithin_succ (hv : v.Rewrites r) {k : Nat} {e e' : Expr} {c : Context} {own own' : σ}
    {b : Bool}
    (hparts : inOperands (v.walkExprWithin k) ⟨e, c.enter e.kind .expression, own⟩ =
      .ok () ⟨e', (c.mark b).enter e.kind .expression, own'⟩) :
    v.walkExprWithin (k + 1) ⟨e, c, own⟩ =
      .ok () ⟨Expr.replaceBy r.replacement? e', c.mark (b || (r.replacement? e').isSome),
        r.note e' own'⟩ := by
  rw [walkExprWithin, hv.visitExpr, hv.endVisitExpr]
  -- The frame is the one entered here, and the replacement is the only request in it.
  simp only [bind_apply, node_apply, inFrame_apply, around_apply, pure_apply, hparts,
    Rewriter.consult, modify_apply, Expr.replaceBy]
  cases r.replacement? e' with
  | none =>
    simp only [pure_apply, Option.isSome_none, Bool.or_false, Option.getD_none]
    rfl
  | some x =>
    simp only [request_apply, Context.request_enter, Request.required, if_true,
      Option.isSome_some, Option.getD_some, ← Context.mark_mark]
    simp only [Context.mark, Bool.or_true]
    rfl

/-- At a depth that the expression fits in, the walk rewrites it from the leaves up and notes what
it offered, in order. -/
lemma walkExprWithin (hv : v.Rewrites r) {k : Nat} {e : Expr} (hk : e.depth ≤ k) (c : Context)
    (own : σ) :
    v.walkExprWithin k ⟨e, c, own⟩ =
      .ok () ⟨e.rewrite r.replacement?, c.mark (r.hits (e.offered r.replacement?)),
        r.notes own (e.offered r.replacement?)⟩ := by
  induction k generalizing e c own with
  | zero =>
    -- No expression has depth zero, so the levels do not run out before the parts do.
    have := e.depth_pos
    omega
  | succ k ih =>
    -- The operands are rewritten first, in the context of this expression, and what is offered of
    -- them comes before the expression.
    have hparts : inOperands (v.walkExprWithin k) ⟨e, c.enter e.kind .expression, own⟩ =
        .ok () ⟨e.mapOperands (Expr.rewrite r.replacement?),
          (c.mark (r.hits (e.operands.flatMap (Expr.offered r.replacement?)))).enter e.kind
            .expression,
          r.notes own (e.operands.flatMap (Expr.offered r.replacement?))⟩ := by
      cases e with
      | instanceField i f receiver =>
        simp only [Expr.depth] at hk
        simp only [inOperands, bind_apply, node_apply, part_apply, ih (e := receiver) (by omega),
          Expr.operands, List.flatMap_singleton]
        rfl
      -- The operands are disjoint parts, so what is put back for one does not matter to the other.
      | binary i op lhs rhs =>
        simp only [Expr.depth] at hk
        simp only [inOperands, bind_apply, node_apply, part_apply, ih (e := lhs) (by omega),
          ih (e := rhs) (by omega), Context.mark_mark, ← Rewriter.hits_append,
          ← Rewriter.notes_append, Expr.operands, List.flatMap_cons, List.flatMap_nil,
          List.append_nil]
        rfl
      | _ =>
        simp only [inOperands, bind_apply, node_apply, pure_apply, Expr.operands,
          List.flatMap_nil, Rewriter.hits, List.any_nil, Context.mark_false]
        rfl
    rw [hv.walkExprWithin_succ hparts, Expr.rewrite_eq, Expr.offered_eq, r.hits_append,
      r.hits_singleton, r.notes_append]
    rfl

/-- Visiting an expression rewrites it. -/
theorem walkExpr (hv : v.Rewrites r) (e : Expr) (c : Context) (own : σ) :
    v.walkExpr ⟨e, c, own⟩ =
      .ok () ⟨e.rewrite r.replacement?, c.mark (r.hits (e.offered r.replacement?)),
        r.notes own (e.offered r.replacement?)⟩ :=
  hv.walkExprWithin (Nat.le_add_right _ _) c own

end Visitor.Rewrites

/-! ## Visits that follow a trace -/

/-- The site at the node `n` after a trace that began with the context `c` and the own state
`own`. -/
def Rewriter.site (r : Rewriter σ) (c : Context) (own : σ) (t : Trace ξ) (n : ν) :
    Site (σ × ξ) ν :=
  ⟨n, c.mark (r.hits t.offered), (r.notes own t.offered, t.reach)⟩

/-- The visit `w` turns the node `n` into `n'`, returns `a`, and does to the trace what `m` does. -/
structure Visit.Turns (r : Rewriter σ) (own : σ) (c : Context) (n : ν) (w : Visit (σ × ξ) ν α)
    (m : Trace ξ → Except Fault (Trace ξ)) (a : α) (n' : ν) : Prop where
  ok : ∀ {t t'}, m t = .ok t' → w (r.site c own t n) = .ok a (r.site c own t' n')
  error : ∀ {t f}, m t = .error f → ∃ s, w (r.site c own t n) = .error f s

/-- In every context, the visit rewrites the statement and follows its events. -/
def Visit.TurnsStmt (r : Rewriter σ) (own : σ) (w : Visit (σ × Scope) Stmt Unit) (s : Stmt) :
    Prop :=
  ∀ c, Turns r own c s w (Trace.run r.replacement? s.events) ()
    (s.mapExpr (Expr.rewrite r.replacement?))

namespace Visit.Turns

variable {r : Rewriter σ} {own : σ} {c : Context} {n n₁ n₂ : ν} {a : α} {b : β}
  {m l : Trace ξ → Except Fault (Trace ξ)}

lemma pure : Turns r own c n (Pure.pure a : Visit (σ × ξ) ν α) .ok a n where
  ok h := by
    cases h
    rfl
  error h := by cases h

/-- A turn goes through a sequence, the two passages over the trace composed. -/
lemma bind {w : Visit (σ × ξ) ν α} {k : α → Visit (σ × ξ) ν β} (h : Turns r own c n w m a n₁)
    (hk : Turns r own c n₁ (k a) l b n₂) :
    Turns r own c n (w >>= k) (fun t => m t >>= l) b n₂ where
  ok {t t'} hml := by
    obtain ⟨t₁, hm, hl⟩ := Trace.bind_eq_ok_iff.mp hml
    rw [bind_apply, h.ok hm]
    exact hk.ok hl
  error {t f} hml := by
    obtain hm | ⟨t₁, hm, hl⟩ := Trace.bind_eq_error_iff.mp hml
    · obtain ⟨s, hs⟩ := h.error hm
      exact ⟨s, by rw [bind_apply, hs]⟩
    · rw [bind_apply, h.ok hm]
      exact hk.error hl

lemma node_bind {k : ν → Visit (σ × ξ) ν β} (h : Turns r own c n (k n) m b n₁) :
    Turns r own c n (node >>= k) m b n₁ :=
  ⟨h.ok, h.error⟩

/-- What follows a visit and does nothing to the trace. -/
lemma bind_quiet {w : Visit (σ × ξ) ν α} {k : α → Visit (σ × ξ) ν β}
    (h : Turns r own c n w m a n₁) (hk : Turns r own c n₁ (k a) .ok b n₂) :
    Turns r own c n (w >>= k) m b n₂ := by
  have hbind := h.bind hk
  -- To do nothing more is to end with what there is.
  have hm : (fun t => m t >>= .ok) = m := by
    funext t
    exact bind_pure (m t)
  rwa [hm] at hbind

lemma then_node {w : Visit (σ × ξ) ν Unit} (h : Turns r own c n w m () n₁) :
    Turns r own c n (do w; node) m n₁ n₁ :=
  h.bind_quiet (node_bind pure)

/-- A part of the node is turned, and with it the node. -/
lemma part {x x₁ : μ} {put : μ → ν} {w : Visit (σ × ξ) μ α} (h : Turns r own c x w m a x₁) :
    Turns r own c n (part x put w) m a (put x₁) where
  ok {t t'} hm := by
    have hw := h.ok hm
    simp only [Rewriter.site] at hw ⊢
    rw [part_apply, hw]
  error {t f} hm := by
    obtain ⟨s, hw⟩ := h.error hm
    simp only [Rewriter.site] at hw ⊢
    exact ⟨_, by rw [part_apply, hw]⟩

/-- A node that is no expression is left with an untouched frame. -/
lemma inFrame {kind : NodeKind} {slot : Slot} {w : Visit (σ × ξ) ν Unit}
    (h : Turns r own (c.enter kind slot) n w m () n₁) :
    Turns r own c n (inFrame kind slot w) m (some { kind, slot }) n₁ where
  ok {t t'} hm := by
    have hw := h.ok hm
    simp only [Rewriter.site] at hw ⊢
    rw [inFrame_apply]
    exact hw ▸ rfl
  error {t f} hm := by
    obtain ⟨s, hw⟩ := h.error hm
    simp only [Rewriter.site] at hw ⊢
    rw [inFrame_apply]
    exact ⟨s, hw ▸ rfl⟩

/-- The elements of a list are turned one after the other, each into one in its place. -/
lemma eachSegment {xs : List μ} {f : μ → μ} {w : Visit (σ × ξ) μ (List μ)}
    {m : μ → Trace ξ → Except Fault (Trace ξ)}
    (h : ∀ x ∈ xs, Turns r own c x w (m x) [f x] (f x)) :
    Turns r own c xs (eachSegment w) (fun t => xs.foldlM (fun t x => m x t) t) () (xs.map f) := by
  induction xs with
  | nil =>
    constructor
    · intro t t' ht
      cases ht
      rfl
    · intro t f ht
      cases ht
  | cons x rest ih =>
    have hx := h x List.mem_cons_self
    have hrest := ih fun y hy => h y (List.mem_cons_of_mem x hy)
    -- Whether the head fails decides whether the tail is visited at all.
    have hcons (t : Trace ξ) : (x :: rest).foldlM (fun t x => m x t) t =
        m x t >>= fun t => rest.foldlM (fun t x => m x t) t := List.foldlM_cons
    constructor
    · intro t t' ht
      obtain ⟨t₁, hm, hms⟩ := Trace.bind_eq_ok_iff.mp ((hcons t).symm.trans ht)
      have hhead := hx.ok hm
      have htail := hrest.ok hms
      simp only [Rewriter.site, Visit.eachSegment] at hhead htail ⊢
      simp only [eachOf, hhead, htail]
      rfl
    · intro t e ht
      obtain hm | ⟨t₁, hm, hms⟩ := Trace.bind_eq_error_iff.mp ((hcons t).symm.trans ht)
      · obtain ⟨s, hhead⟩ := hx.error hm
        simp only [Rewriter.site, Visit.eachSegment] at hhead ⊢
        simp only [eachOf, hhead]
        exact ⟨_, rfl⟩
      · have hhead := hx.ok hm
        obtain ⟨s, htail⟩ := hrest.error hms
        simp only [Rewriter.site, Visit.eachSegment] at hhead htail ⊢
        simp only [eachOf, hhead, htail]
        exact ⟨_, rfl⟩

end Visit.Turns

/-! ## Hooks that accept -/

lemma Visit.beside_pure (a : α) : (beside (pure a) : Visit (σ × ξ) ν α) = pure a := rfl

lemma Visit.around_accepted (w : Visit σ ν Unit) : around (pure true) w (pure ()) = w := by
  simp only [around, pure_bind, if_true]
  exact bind_pure_unit

lemma Visit.inFrame_nothing (kind : NodeKind) (slot : Slot) :
    (do let _ ← inFrame kind slot (pure ()) : Visit σ ν Unit) = pure () := rfl

lemma Visit.each_nothing : (each (pure ()) : Visit σ (List μ) Unit) = pure () := by
  have h (list : List μ) (c : Context) (own : σ) :
      eachOf (do pure (); return [← node]) list c own = .ok () ⟨list, c, own⟩ := by
    induction list generalizing c own with
    | nil => rfl
    | cons x rest ih =>
      rw [eachOf]
      simp only [bind_apply, node_apply, pure_apply, ih, List.cons_append, List.nil_append]
  funext s
  exact h s.node s.context s.own

namespace Visitor.Rewrites

variable {v : Visitor σ} {r : Rewriter σ} (hv : v.Rewrites r)
include hv

/-- Annotations are visited and kept. -/
lemma inTags {get : ν → List Tag} {put : ν → List Tag → ν} (h : ∀ n, put n (get n) = n) :
    v.inTags get put = pure () := by
  have hforM (tags : List Tag) : tags.forM v.walkTag = pure () := by
    induction tags with
    | nil => rfl
    | cons t rest ih =>
      rw [List.forM, ih, Visitor.walkTag, hv.visitTag, hv.endVisitTag, around_accepted,
        inFrame_nothing, pure_bind]
  funext s
  simp only [Visitor.inTags, walkTags, hv.keepTags, hforM, pure_bind, bind_apply, node_apply,
    part_apply, pure_apply, setNode_apply, h]

lemma walkField : v.walkField = pure () := by
  rw [Visitor.walkField, hv.visitField, hv.endVisitField, around_accepted,
    hv.inTags fun _ => rfl, inFrame_nothing]

lemma walkParameter : v.walkParameter = pure () := by
  rw [Visitor.walkParameter, hv.visitParameter, hv.endVisitParameter, around_accepted,
    inFrame_nothing]

/-- Initializers are not visited where their fields are listed. -/
lemma inFields : v.inFields = pure () := by
  funext s
  simp only [Visitor.inFields, hv.walkField, each_nothing, bind_apply, node_apply, part_apply,
    pure_apply]

lemma inParameters : v.inParameters = pure () := by
  funext s
  simp only [Visitor.inParameters, hv.walkParameter, each_nothing, bind_apply, node_apply,
    part_apply, pure_apply]

/-! ## Statements and blocks -/

/-- An expression walked below a statement adds what it offers to the trace. -/
lemma beside_walkExpr (e : Expr) (c : Context) (own : σ) :
    Turns r own c e (beside v.walkExpr : Visit (σ × ξ) Expr Unit)
      (fun t => .ok { t with offered := t.offered ++ e.offered r.replacement? }) ()
      (e.rewrite r.replacement?) where
  ok {t t'} h := by
    cases h
    simp only [Rewriter.site, beside_apply, hv.walkExpr, Context.mark_mark, r.hits_append,
      r.notes_append]
  error h := by cases h

/-- The walk over an initializer rewrites it where the declaration has one. -/
lemma walkInitializer (d : Declared) (c : Context) (own : σ) :
    v.walkInitializer ⟨d, c, own⟩ =
      .ok () ⟨d.mapInitializer (Expr.rewrite r.replacement?),
        c.mark (r.hits (d.offered r.replacement?)), r.notes own (d.offered r.replacement?)⟩ := by
  simp only [Visitor.walkInitializer, bind_apply, node_apply, Declared.offered]
  cases hd : d.base.declaration with
  | none =>
    simp only [Declared.mapInitializer_of_none hd, pure_apply, Rewriter.hits, List.any_nil,
      Context.mark_false]
    rfl
  | some x =>
    simp only [Declared.mapInitializer_of_some hd, part_apply, hv.walkExpr]

/-- The walk at a declaration is the step of the trace at the anchor. -/
lemma walkDeclaration (info : Provenance) (slot : VarSlot) (s : Stmt) (c : Context) (own : σ) :
    Turns r own c s (v.walkDeclaration info slot)
      (fun t => t.step r.replacement? (.anchor ⟨info, slot⟩)) () s where
  -- The variable is taken from the scope and put back, with its initializer rewritten in between.
  ok {t t'} h := by
    rw [Trace.step] at h
    rw [Visitor.walkDeclaration, hv.visitDeclaration, hv.endVisitDeclaration, around_accepted]
    simp only [bind_apply, get_apply, Rewriter.site]
    cases hd : t.reach.resolve? slot with
    | none => simp only [hd] at h; cases h
    | some d =>
      simp only [hd] at h
      cases h
      simp only [zoom, hv.walkInitializer, Scope.store_mapInitializer hd, Context.mark_mark,
        r.hits_append, r.notes_append]
  error {t f} h := by
    rw [Trace.step] at h
    rw [Visitor.walkDeclaration]
    simp only [bind_apply, get_apply, Rewriter.site]
    cases hd : t.reach.resolve? slot with
    | some d => simp only [hd] at h; cases h
    | none =>
      simp only [hd] at h
      cases h
      exact ⟨_, rfl⟩

/-- A block is turned if its statements are. -/
lemma walkBlockBy {b : Block} {c : Context} {own : σ} {w : Visit (σ × Scope) Stmt Unit}
    (h : ∀ s ∈ b.stmts, TurnsStmt r own w s) :
    Turns r own c b (v.walkBlockBy w) (Trace.run r.replacement? (Block.events b)) ()
      (Block.mapExpr (Expr.rewrite r.replacement?) b) := by
  obtain ⟨info, stmts⟩ := b
  have hstmts : Turns r own c stmts (eachStmt w) _ () _ :=
    .eachSegment fun s hs => .node_bind ((h s hs _).inFrame.bind_quiet (.node_bind .pure))
  rw [Visitor.walkBlockBy, hv.visitBlock, hv.endVisitBlock, beside_pure, beside_pure,
    around_accepted, Block.mapExpr, stmtsMapExpr_eq, Block.events, Trace.run_stmts]
  exact .node_bind hstmts.part

/-- A block turns by the trace of its events where each of its statements does by its own. -/
lemma walkFixedBlockBy {b : Block} {c : Context} {own : σ} {w : Visit (σ × Scope) Stmt Unit}
    (h : ∀ s ∈ b.stmts, TurnsStmt r own w s) :
    Turns r own c b (v.walkFixedBlockBy w) (Trace.run r.replacement? (Block.events b)) ()
      (Block.mapExpr (Expr.rewrite r.replacement?) b) :=
  (hv.walkBlockBy h).inFrame.bind_quiet .pure

/-- The parts of a statement that is neither an anchor nor a block are turned if the statements
nested in it are. -/
lemma inStmt {s : Stmt} {c : Context} {own : σ} {w : Visit (σ × Scope) Stmt Unit}
    (h : ∀ t, t.nesting < s.nesting → TurnsStmt r own w t)
    (hdeclare : ∀ info slot, s ≠ .declare info slot) (hblock : ∀ b, s ≠ .block b) :
    Turns r own c s (v.inStmt w) (Trace.run r.replacement? s.events) ()
      (s.mapExpr (Expr.rewrite r.replacement?)) := by
  -- Anchors and blocks are walked by themselves, and each other statement has its own parts here.
  refine .node_bind ?_
  cases s with
  | declare info slot => exact absurd rfl (hdeclare info slot)
  | block b => exact absurd rfl (hblock b)
  | eval i e =>
    rw [Stmt.events, Trace.run_singleton]
    exact (hv.beside_walkExpr e c own).part
  | ret i value =>
    cases value with
    | none => exact .pure
    | some e =>
      rw [Stmt.events, Trace.run_singleton]
      exact (hv.beside_walkExpr e c own).part
  | branch i cond onTrue onFalse =>
    simp only [Stmt.nesting] at h
    have hcond : Turns r own c cond (beside v.walkExpr : Visit (σ × Scope) Expr Unit) _ () _ :=
      hv.beside_walkExpr cond c own
    have htrue : Turns r own c onTrue (v.walkFixedBlockBy w) _ () _ :=
      hv.walkFixedBlockBy fun t ht => h t (by have := nesting_le_of_mem ht; omega)
    rw [Stmt.events, Trace.run_cons, Trace.run_append, Stmt.mapExpr]
    refine hcond.then_node.part.bind (htrue.then_node.part.bind ?_)
    cases onFalse with
    | none => exact .pure
    | some b =>
      refine (hv.walkFixedBlockBy fun t ht => h t ?_).part
      have := nesting_le_of_mem ht
      simp only [elseNesting]
      omega

/-- At a nesting that the statement fits in, it turns by the trace of its events. -/
lemma walkStmtWithin {k : Nat} {s : Stmt} {own : σ} (hk : s.nesting ≤ k) :
    TurnsStmt r own (v.walkStmtWithin k) s := by
  induction k generalizing s with
  | zero => cases s <;> simp [Stmt.nesting] at hk
  | succ k ih =>
    intro c
    have hparts : _ → _ → Turns r own c s (v.inStmt (v.walkStmtWithin k)) _ () _ :=
      hv.inStmt fun t ht => ih (by omega)
    rw [Visitor.walkStmtWithin, hv.visitStmt, hv.endVisitStmt, beside_pure, beside_pure,
      around_accepted]
    refine .node_bind ?_
    cases s with
    | declare info slot =>
      rw [Stmt.events, Trace.run_singleton]
      exact hv.walkDeclaration info slot _ c own
    | block b =>
      refine (hv.walkBlockBy fun t ht => ih ?_).part
      have := nesting_le_of_mem ht
      simp only [Stmt.nesting] at hk
      omega
    -- Every other statement is visited by its parts.
    | eval i e => exact hparts (by simp) (by simp)
    | ret i value => exact hparts (by simp) (by simp)
    | branch i cond onTrue onFalse => exact hparts (by simp) (by simp)

/-- A body turns by the trace of its block. -/
lemma walkBody (b : Block) (c : Context) (own : σ) :
    Turns r own c b v.walkBody (Trace.run r.replacement? (Block.events b)) ()
      (Block.mapExpr (Expr.rewrite r.replacement?) b) :=
  .node_bind (hv.walkFixedBlockBy fun s hs => hv.walkStmtWithin (by
    have := nesting_le_of_mem hs
    omega))

/-! ## Methods and types -/

/-- The walk over a method's body turns by the trace of the method. -/
lemma inBody (m : Method) (c : Context) (own : σ) :
    Turns r own c m v.inBody (Trace.method r.replacement? m) () (m.rewrite r.replacement?) := by
  refine .node_bind ?_
  cases hb : m.body with
  | none =>
    -- A method without a body has no events, and no anchor for its local variables either.
    have hmethod : Trace.method r.replacement? m = .ok := by
      funext t
      rw [Trace.method, Method.events, hb]
      rfl
    rw [hmethod, Method.rewrite_of_none hb]
    exact .pure
  | some b =>
    have hevents : m.events = Block.events b := by rw [Method.events, hb]
    have hbody := hv.walkBody b c own
    constructor
    · intro t t' h
      have hends := Trace.run_events_ends r.replacement? m t.offered t.reach
      rw [Trace.method] at h
      -- A trace that goes on has met no dangling anchor, and then its reach is that of the scope.
      cases hd : m.dangling? t.reach with
      | some f =>
        rw [hd] at hends
        rw [show Trace.run _ _ _ = .error f from hends] at h
        cases h
      | none =>
        rw [hd] at hends
        obtain ⟨offered, hrun⟩ := hends
        rw [hrun] at h
        cases h
        rw [hevents] at hrun
        have hwalk := hbody.ok hrun
        simp only [Rewriter.site] at hwalk ⊢
        simp only [zoom, hwalk, Method.rewrite, hb, Option.map_some]
    · intro t f h
      rw [Trace.method, hevents] at h
      -- The walk fails where the trace does, and its state is not looked at any more.
      cases hrun : Trace.run r.replacement? (Block.events b)
        ⟨t.offered, ⟨m.owner, t.reach, m.locals⟩⟩ with
      | ok t₁ =>
        rw [hrun] at h
        cases h
      | error f' =>
        rw [hrun] at h
        cases h
        obtain ⟨s, hwalk⟩ := hbody.error hrun
        simp only [Rewriter.site] at hwalk ⊢
        simp only [zoom, hwalk]
        exact ⟨_, rfl⟩

/-- The walk over a method turns by the trace of the method, its other parts being walked without
effect. -/
lemma walkMethod (m : Method) (c : Context) (own : σ) :
    Turns r own c m v.walkMethod (Trace.method r.replacement? m) ()
      (m.rewrite r.replacement?) := by
  -- Annotations and parameters are visited without a trace.
  have hparts : v.inMethod = v.inBody := by
    rw [Visitor.inMethod, hv.inTags fun _ => rfl, hv.inParameters, beside_pure, pure_bind,
      pure_bind]
  rw [Visitor.walkMethod, hv.visitMethod, hv.endVisitMethod, beside_pure, beside_pure,
    around_accepted, hparts]
  exact (hv.inBody m _ own).inFrame.bind_quiet .pure

/-- The methods of a type turn one after the other, the trace running on from each to the next. -/
lemma each_walkMethod (methods : List Method) (c : Context) (own : σ) :
    Turns r own c methods (each v.walkMethod) (Trace.methods r.replacement? methods) ()
      (methods.map (Method.rewrite r.replacement?)) :=
  .eachSegment fun m _ => (hv.walkMethod m c own).bind_quiet (.node_bind .pure)

/-- Only the methods of a type matter to the walk, and what is changed of the fields comes from
there. -/
lemma walkType_apply (t : DeclaredType) (c : Context) (own : σ) :
    v.walkType ⟨t, c, own⟩ =
      match each v.walkMethod ⟨t.methods, Observer.insideType c t, (own, t.fields)⟩ with
      | .ok _ s => .ok () ⟨{ t with methods := s.node, fields := s.own.2 },
          { s.context.leave with enclosingType := c.enclosingType }, s.own.1⟩
      | .error f s => .error f ⟨{ t with methods := s.node, fields := s.own.2 }, s.context,
          s.own.1⟩ := by
  -- Fields are walked without effect, and so are annotations.
  have hparts : v.inType = v.inMethods := by
    rw [inType, hv.inTags fun _ => rfl, hv.inFields, pure_bind, pure_bind]
  rw [Visitor.walkType, hv.visitType, hv.endVisitType, around_accepted, hparts]
  simp only [bind_apply, node_apply, inFrame_apply, enclosedBy, context_apply, mapContext_apply,
    Visitor.inMethods, zoom, Observer.insideType]
  cases each v.walkMethod _ <;> rfl

omit hv in
/-- A walk through the methods begins with an empty trace, which is no change yet. -/
lemma site_nil (r : Rewriter σ) (t : DeclaredType) (c : Context) (own : σ) :
    r.site (Observer.insideType c t) own ⟨[], t.fields⟩ t.methods =
      ⟨t.methods, Observer.insideType c t, (own, t.fields)⟩ := by
  simp only [Rewriter.site, Rewriter.hits, List.any_nil, Context.mark_false]
  rfl

/-- What has been offered in the methods decides the change flag and the own state. -/
lemma walkType_of_methods {t : DeclaredType} {t' : Trace (List Field)}
    (h : Trace.methods r.replacement? t.methods ⟨[], t.fields⟩ = .ok t') (c : Context) (own : σ) :
    v.walkType ⟨t, c, own⟩ = .ok () ⟨t.rewrite r.replacement?, c.mark (r.hits t'.offered),
      r.notes own t'.offered⟩ := by
  have hwalk := (hv.each_walkMethod t.methods (Observer.insideType c t) own).ok h
  have hreach := (Trace.methods_ends r.replacement? t.methods ⟨[], t.fields⟩).reach_eq h
  rw [site_nil] at hwalk
  rw [hv.walkType_apply, hwalk]
  simp only [Rewriter.site, hreach]
  rfl

/-- Visiting a type rewrites it, unless one of its anchors does not resolve.  There is no change
just when nothing is replaced in the expressions that the walk comes to. -/
theorem walkType (t : DeclaredType) (c : Context) (own : σ) :
    match t.dangling? with
    | some f => ∃ s, v.walkType ⟨t, c, own⟩ = .error f s
    | none => ∃ offered, v.walkType ⟨t, c, own⟩ =
        .ok () ⟨t.rewrite r.replacement?, c.mark (r.hits offered), r.notes own offered⟩ ∧
          (r.hits offered = false ↔ ∀ e ∈ t.walked, e.Settled r.replacement?) := by
  have hends := Trace.methods_ends r.replacement? t.methods ⟨[], t.fields⟩
  rw [DeclaredType.dangling?]
  cases hd : t.methods.findSome? (Method.dangling? t.fields) with
  | some f =>
    rw [hd] at hends
    obtain ⟨s, hs⟩ := (hv.each_walkMethod t.methods (Observer.insideType c t) own).error hends
    rw [site_nil] at hs
    exact ⟨_, by rw [hv.walkType_apply, hs]⟩
  | none =>
    rw [hd] at hends
    obtain ⟨offered, hmethods⟩ := hends
    refine ⟨offered, hv.walkType_of_methods hmethods c own, ?_⟩
    rw [r.hits_eq_false_iff]
    simpa [Trace.Quiet, DeclaredType.walked] using Trace.quiet_of_methods hmethods

end Visitor.Rewrites
end DeclIR
