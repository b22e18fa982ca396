import DeclIR.Proofs.Code.Walked
import DeclIR.Proofs.Traversal.Observer
import Mathlib.Tactic.Lemma

/-!
# Walks of observers

A walk of a visitor that observes does to its own state what the recursion over the code in
`DeclIR.Proofs.Traversal.Observer` says, and leaves the node and the context as they were.  If it
fails, the node is as it was nevertheless; only the context is that of the failure.

`Agrees` says this of one visit.  It has a lemma for each way to build a visit, and one for each
walker follows from these.
-/

namespace DeclIR

open Visit

section Agrees

variable {σ τ ν μ α β : Type}

/-- Running one computation after another. -/
lemma EStateM_bind_apply {ε : Type} (x : EStateM ε σ α) (f : α → EStateM ε σ β) (s : σ) :
    (x >>= f) s = match x s with
      | .ok a s => f a s
      | .error e s => .error e s := by
  simp only [bind, EStateM.bind]
  cases x s <;> rfl

/-- At the node `n` and in the context `c`, the visit `w` does to the own state what `m` does, and
nothing else.  The own state is a part of the one that `w` has, as `e` says. -/
def Visit.Agrees (e : σ → τ) (n : ν) (c : Context) (w : Visit τ ν α) (m : EStateM Fault σ α) :
    Prop :=
  ∀ own, match m own with
    | .ok a own' => w ⟨n, c, e own⟩ = .ok a ⟨n, c, e own'⟩
    | .error f own' => ∃ c', w ⟨n, c, e own⟩ = .error f ⟨n, c', e own'⟩

namespace Visit.Agrees

variable {e : σ → τ} {n : ν} {c : Context}

lemma pure (a : α) : Agrees e n c (Pure.pure a) (Pure.pure a) := by
  intro own
  rfl

lemma throw (f : Fault) :
    Agrees e n c (throw f : Visit τ ν α) (throw f : EStateM Fault σ α) := by
  intro own
  exact ⟨c, rfl⟩

/-- Agreement goes through a sequence: the walk and the observer take their next steps from the same
value. -/
lemma bind {w : Visit τ ν α} {m : EStateM Fault σ α} {k : α → Visit τ ν β}
    {l : α → EStateM Fault σ β} (h : Agrees e n c w m) (hk : ∀ a, Agrees e n c (k a) (l a)) :
    Agrees e n c (w >>= k) (m >>= l) := by
  intro own
  have hw := h own
  rw [EStateM_bind_apply, bind_apply]
  cases hm : m own with
  | ok a own' =>
    rw [hm] at hw
    simp only [hw]
    exact hk a own'
  | error f own' =>
    rw [hm] at hw
    obtain ⟨c', hw⟩ := hw
    exact ⟨c', by rw [hw]⟩

/-- Reading the node is no change. -/
lemma node_bind {k : ν → Visit τ ν α} {m : EStateM Fault σ α} (h : Agrees e n c (k n) m) :
    Agrees e n c (node >>= k) m := by
  intro own
  simpa using h own

/-- Reading the site is no change. -/
lemma get_bind {k : Site τ ν → Visit τ ν α} {m : EStateM Fault σ α}
    (h : ∀ own, Agrees e n c (k ⟨n, c, e own⟩) m) : Agrees e n c (get >>= k) m := by
  intro own
  simpa using h own own

/-- Putting the node in its own place is no change. -/
lemma setNode : Agrees e n c (setNode n) (Pure.pure () : EStateM Fault σ Unit) := by
  intro own
  rfl

/-- What follows a visit whose result is known. -/
lemma bind_pure {w : Visit τ ν α} {m : EStateM Fault σ Unit} {a : α} {k : α → Visit τ ν β}
    {l : EStateM Fault σ β} (h : Agrees e n c w (m >>= fun _ => Pure.pure a))
    (hk : Agrees e n c (k a) l) : Agrees e n c (w >>= k) (m >>= fun _ => l) := by
  intro own
  have hw := h own
  rw [EStateM_bind_apply] at hw ⊢
  rw [bind_apply]
  cases hm : m own with
  | ok _ own' =>
    rw [hm] at hw
    have hw : w ⟨n, c, e own⟩ = .ok a ⟨n, c, e own'⟩ := hw
    simp only [hw]
    exact hk own'
  | error f own' =>
    rw [hm] at hw
    obtain ⟨c', hw⟩ := hw
    exact ⟨c', by rw [hw]⟩

lemma then_node {w : Visit τ ν Unit} {m : EStateM Fault σ Unit} (h : Agrees e n c w m) :
    Agrees e n c (do w; node) (m >>= fun _ => Pure.pure n) :=
  h.bind fun _ _ => rfl

/-- A node that is entered and left without a request is left with an untouched frame. -/
lemma inFrame {kind : NodeKind} {slot : Slot} {w : Visit τ ν Unit} {m : EStateM Fault σ Unit}
    (h : Agrees e n (c.enter kind slot) w m) :
    Agrees e n c (inFrame kind slot w) (m >>= fun _ => Pure.pure (some { kind, slot })) := by
  intro own
  have hw := h own
  rw [EStateM_bind_apply, inFrame_apply]
  cases hm : m own with
  | ok _ own' =>
    rw [hm] at hw
    simp only [hw]
    rfl
  | error f own' =>
    rw [hm] at hw
    obtain ⟨c', hw⟩ := hw
    exact ⟨c', by rw [hw]⟩

/-- A walk that enters a frame agrees with an observer that looks at the node in the entered
context. -/
lemma inFrame_then {kind : NodeKind} {slot : Slot} {w : Visit τ ν Unit}
    {m : EStateM Fault σ Unit} {k : Option Frame → Visit τ ν Unit}
    (h : Agrees e n (c.enter kind slot) w m)
    (hk : Agrees e n c (k (some { kind, slot })) (Pure.pure () : EStateM Fault σ Unit)) :
    Agrees e n c (Visit.inFrame kind slot w >>= k) m := by
  have := h.inFrame.bind_pure hk
  rwa [bind_pure_unit] at this

lemma inFrame_discard {kind : NodeKind} {slot : Slot} {w : Visit τ ν Unit}
    {m : EStateM Fault σ Unit} (h : Agrees e n (c.enter kind slot) w m) :
    Agrees e n c (do let _ ← Visit.inFrame kind slot w) m :=
  h.inFrame_then (pure ())

/-- The hook pair of a node agrees with an observer's account of it: the parts are looked at only
behind the gate. -/
lemma around {pre : Visit τ ν Bool} {parts post : Visit τ ν Unit} {pre' : EStateM Fault σ Bool}
    {parts' post' : EStateM Fault σ Unit} (hpre : Agrees e n c pre pre')
    (hparts : Agrees e n c parts parts') (hpost : Agrees e n c post post') :
    Agrees e n c (around pre parts post) (do
      if ← pre' then
        parts'
      post') := by
  refine hpre.bind fun descend => ?_
  cases descend with
  | true => exact hparts.bind fun _ => hpost
  | false => exact hpost

/-- A visit at a site that is read off another one, and is put back there. -/
lemma zoom {τ' : Type} {e' : σ → τ'} {x : μ} {get : Site τ ν → Site τ' μ}
    {put : Site τ' μ → Site τ ν → Site τ ν} {w : Visit τ' μ α} {m : EStateM Fault σ α}
    (h : Agrees e' x c w m) (hget : ∀ own, get ⟨n, c, e own⟩ = ⟨x, c, e' own⟩)
    (hput : ∀ c' own' own, put ⟨x, c', e' own'⟩ ⟨n, c, e own⟩ = ⟨n, c', e own'⟩) :
    Agrees e n c (zoom get put w) m := by
  intro own
  have hw := h own
  simp only [Visit.zoom, hget]
  cases hm : m own with
  | ok a own' =>
    rw [hm] at hw
    simp only [hw, hput]
  | error f own' =>
    rw [hm] at hw
    obtain ⟨c', hw⟩ := hw
    exact ⟨c', by simp only [hw, hput]⟩

/-- The walk over a part agrees where the part put back is the node that it was taken from. -/
lemma part {x : μ} {put : μ → ν} {w : Visit τ μ α} {m : EStateM Fault σ α}
    (h : Agrees e x c w m) (hput : put x = n) : Agrees e n c (part x put w) m :=
  h.zoom (fun _ => rfl) fun _ _ _ => by rw [hput]

/-- A walk that keeps a second record untouched agrees with an observer that has no such record. -/
lemma beside {ε : Type} {x : ε} {w : Visit τ ν α} {m : EStateM Fault σ α}
    (h : Agrees e n c w m) : Agrees (fun own => (e own, x)) n c (beside w) m :=
  h.zoom (fun _ => rfl) fun _ _ _ => rfl

/-- A list whose elements each take their own place is left as it was. -/
lemma eachSegment {xs : List μ} {w : Visit τ μ (List μ)} {m : μ → EStateM Fault σ Unit}
    (h : ∀ x ∈ xs, Agrees e x c w (m x >>= fun _ => Pure.pure [x])) :
    Agrees e xs c (eachSegment w) (xs.forM m) := by
  induction xs with
  | nil =>
    intro own
    rfl
  | cons x rest ih =>
    intro own
    have hx := h x List.mem_cons_self own
    rw [EStateM_bind_apply] at hx
    have hrest := ih fun y hy => h y (List.mem_cons_of_mem x hy)
    simp only [List.forM, EStateM_bind_apply, Visit.eachSegment, eachOf]
    -- The head leaves the context as it was, so the tail starts from the same one.
    cases hm : m x own with
    | error f own' =>
      rw [hm] at hx
      obtain ⟨c', hx⟩ := hx
      exact ⟨c', by rw [hx]⟩
    | ok _ own' =>
      rw [hm] at hx
      have hw : w ⟨x, c, e own⟩ = .ok [x] ⟨x, c, e own'⟩ := hx
      have htail := hrest own'
      simp only [Visit.eachSegment] at htail
      simp only [hw]
      cases hl : rest.forM m own' with
      | ok _ own'' =>
        rw [hl] at htail
        simp only [htail, List.cons_append, List.nil_append]
      | error f own'' =>
        rw [hl] at htail
        obtain ⟨c', htail⟩ := htail
        exact ⟨c', by simp only [htail, List.cons_append, List.nil_append]⟩

/-- A run over a list agrees with the observer's run over the same list, in one context. -/
lemma each {xs : List μ} {w : Visit τ μ Unit} {m : μ → EStateM Fault σ Unit}
    (h : ∀ x ∈ xs, Agrees e x c w (m x)) : Agrees e xs c (each w) (xs.forM m) :=
  eachSegment fun x hx => (h x hx).bind fun _ => node_bind (pure [x])

lemma forM {γ : Type} {xs : List γ} {w : γ → Visit τ ν Unit} {m : γ → EStateM Fault σ Unit}
    (h : ∀ x ∈ xs, Agrees e n c (w x) (m x)) : Agrees e n c (xs.forM w) (xs.forM m) := by
  induction xs with
  | nil => exact pure ()
  | cons x rest ih =>
    exact (h x List.mem_cons_self).bind fun _ => ih fun y hy => h y (List.mem_cons_of_mem x hy)

/-- A visit that only looks at the node. -/
lemma look (f : ν → Context → EStateM Fault σ α) : Agrees id n c (look f) (f n c) := by
  intro own
  simp only [Visit.look, id]
  cases f n c own with
  | ok a own' => rfl
  | error f own' => exact ⟨c, rfl⟩

end Visit.Agrees
end Agrees

/-! ## Putting a variable where it was found -/

lemma Declared.declare_self {d : Declared} {x : Declaration} (h : d.base.declaration = some x) :
    d.declare x = d := by
  cases d with
  | field f =>
    obtain ⟨⟨⟩⟩ := f
    simp only [Declared.base] at h
    simp only [Declared.declare, Field.declare, Variable.declare, h]
  | localVar v =>
    obtain ⟨⟩ := v
    simp only [Declared.base] at h
    simp only [Declared.declare, Variable.declare, h]

/-! ## The walkers -/

section Walkers

variable {σ : Type} {v : Visitor σ} {o : Observer σ}

namespace Observer

/-- Observes the direct parts of an expression. -/
def operands (o : Observer σ) (c : Context) : Expr → EStateM Fault σ Unit
  | .instanceField _ _ r => o.expr c r
  | .binary _ _ l r => do
    o.expr c l
    o.expr c r
  | _ => pure ()

/-- An observer's account of an expression is the account of its node and of its operands below it.
-/
lemma expr_eq (c : Context) (e : Expr) :
    o.expr c e = o.node (.expr e) (c.enter e.kind .expression)
      (o.operands (c.enter e.kind .expression) e) := by
  cases e <;> rfl

/-- Observes the parts of a statement that is neither an anchor nor a block. -/
def inStmt (o : Observer σ) (scope : Scope) (c : Context) : Stmt → EStateM Fault σ Unit
  | .eval _ e => o.expr c e
  | .ret _ (some e) => o.expr c e
  | .branch _ cond onTrue onFalse => do
    o.expr c cond
    o.block scope (c.enter .block .fixed) onTrue
    o.alternative scope c onFalse
  | _ => pure ()

/-- An observer's account of a list of statements is that of its statements, one after the other. -/
lemma stmts_eq (scope : Scope) (c : Context) (list : List Stmt) :
    o.stmts scope c list = list.forM fun s => o.stmt scope (c.enter s.kind .statement) s := by
  induction list with
  | nil => rfl
  | cons s rest ih => rw [stmts, ih, List.forM]

end Observer

namespace Visitor.Observes

variable (hv : v.Observes o)
include hv

/-- At a depth that the expression fits in, walking it agrees with the observer's account of it. -/
lemma walkExprWithin {k : Nat} {e : Expr} {c : Context} (hk : e.depth ≤ k) :
    Agrees id e c (v.walkExprWithin k) (o.expr c e) := by
  induction k generalizing e c with
  | zero =>
    -- No expression has depth zero, so the levels do not run out before the parts do.
    have := e.depth_pos
    omega
  | succ k ih =>
    have hparts : Agrees id e (c.enter e.kind .expression)
        (Visitor.inOperands (v.walkExprWithin k)) (o.operands (c.enter e.kind .expression) e) := by
      refine .node_bind ?_
      cases e with
      | instanceField i f r =>
        simp only [Expr.depth] at hk
        exact .part (ih (by omega)) rfl
      | binary i op l r =>
        simp only [Expr.depth] at hk
        have hl : Agrees id l _ (v.walkExprWithin k) (o.expr (c.enter .binary .expression) l) :=
          ih (by omega)
        have hr : Agrees id r _ (v.walkExprWithin k) (o.expr (c.enter .binary .expression) r) :=
          ih (by omega)
        exact (hl.then_node.part rfl).bind_pure (hr.part rfl)
      | _ => exact .pure ()
    rw [Observer.expr_eq, Visitor.walkExprWithin]
    refine .node_bind ?_
    rw [hv.visitExpr, hv.endVisitExpr]
    exact .inFrame_then
      (.around (.look fun e => o.pre (.expr e)) hparts (.look fun e => o.post (.expr e)))
      (.node_bind .setNode)

lemma walkExpr (e : Expr) (c : Context) : Agrees id e c v.walkExpr (o.expr c e) :=
  .node_bind (hv.walkExprWithin (Nat.le_add_right _ _))

lemma walkInitializer (d : Declared) (c : Context) :
    Agrees id d c v.walkInitializer (o.initializer c d) := by
  refine .node_bind ?_
  rw [Observer.initializer]
  cases hd : d.base.declaration with
  | none => exact .pure ()
  | some x => exact (hv.walkExpr x.initializer c).part (Declared.declare_self hd)

/-- At a declaration the walk and the observer look up the same declaration in the scope, and fail
on the same slots. -/
lemma walkDeclaration (scope : Scope) (s : Stmt) (c : Context) (info : Provenance)
    (slot : VarSlot) :
    Agrees (fun own => (own, scope)) s c (v.walkDeclaration info slot)
      (o.anchor scope c info slot) := by
  rw [Observer.anchor, Visitor.walkDeclaration]
  refine .get_bind fun _ => ?_
  cases hd : scope.resolve? slot with
  | none => exact .throw _
  | some d =>
    rw [hv.visitDeclaration, hv.endVisitDeclaration]
    have hnode := Agrees.around (.look fun d => o.pre (.declaration slot info d))
      (hv.walkInitializer d c) (.look fun d => o.post (.declaration slot info d))
    -- The variable comes back as it was found, so the scope is the same after it is stored.
    exact hnode.zoom (fun _ => rfl) fun _ _ _ => by rw [id, Scope.store_resolve hd]

omit hv in
/-- A run over a statement list agrees with the observer's run where each statement does in its own
frame. -/
lemma eachStmt {scope : Scope} {list : List Stmt} {c : Context}
    {w : Visit (σ × Scope) Stmt Unit} {m : Stmt → EStateM Fault σ Unit}
    (h : ∀ s ∈ list, Agrees (fun own => (own, scope)) s (c.enter s.kind .statement) w (m s)) :
    Agrees (fun own => (own, scope)) list c (Visitor.eachStmt w) (list.forM m) :=
  .eachSegment fun s hs => .node_bind ((h s hs).inFrame.bind_pure (.node_bind (.pure [s])))

/-- A block is observed if the walk of its statements is. -/
lemma walkBlockBy {scope : Scope} {b : Block} {c : Context} {w : Visit (σ × Scope) Stmt Unit}
    (h : ∀ s ∈ b.stmts, ∀ c, Agrees (fun own => (own, scope)) s c w (o.stmt scope c s)) :
    Agrees (fun own => (own, scope)) b c (v.walkBlockBy w) (o.block scope c b) := by
  obtain ⟨info, list⟩ := b
  -- Each statement is entered with a frame of its own kind, and left without edits.
  have hstmts : Agrees (fun own => (own, scope)) (⟨info, list⟩ : Block) c (Visitor.inBlock w)
      (o.stmts scope c list) := by
    rw [Observer.stmts_eq]
    exact .node_bind ((eachStmt fun s hs => h s hs _).part rfl)
  rw [Visitor.walkBlockBy, hv.visitBlock, hv.endVisitBlock, Observer.block]
  exact .around (Agrees.look fun b => o.pre (.block b)).beside hstmts
    (Agrees.look fun b => o.post (.block b)).beside

lemma walkFixedBlockBy {scope : Scope} {b : Block} {c : Context}
    {w : Visit (σ × Scope) Stmt Unit}
    (h : ∀ s ∈ b.stmts, ∀ c, Agrees (fun own => (own, scope)) s c w (o.stmt scope c s)) :
    Agrees (fun own => (own, scope)) b c (v.walkFixedBlockBy w)
      (o.block scope (c.enter .block .fixed) b) :=
  (hv.walkBlockBy h).inFrame_discard

/-- The parts of a statement are observed if the statements nested in it are. -/
lemma inStmt {scope : Scope} {s : Stmt} {c : Context} {w : Visit (σ × Scope) Stmt Unit}
    (h : ∀ t, t.nesting < s.nesting → ∀ c,
      Agrees (fun own => (own, scope)) t c w (o.stmt scope c t)) :
    Agrees (fun own => (own, scope)) s c (v.inStmt w) (o.inStmt scope c s) := by
  refine .node_bind ?_
  cases s with
  | declare i slot => exact .pure ()
  | block b => exact .pure ()
  | eval i e => exact (hv.walkExpr e c).beside.part rfl
  | ret i value =>
    cases value with
    | none => exact .pure ()
    | some e => exact (hv.walkExpr e c).beside.part rfl
  | branch i cond onTrue onFalse =>
    simp only [Stmt.nesting] at h
    have hcond := (hv.walkExpr cond c).beside (x := scope)
    have htrue : Agrees (fun own => (own, scope)) onTrue c (v.walkFixedBlockBy w) _ :=
      hv.walkFixedBlockBy fun t ht => h t (by have := nesting_le_of_mem ht; omega)
    -- The parts are put back one after the other; none of them has changed.
    refine (hcond.then_node.part rfl).bind_pure ((htrue.then_node.part rfl).bind_pure ?_)
    cases onFalse with
    | none => exact .pure ()
    | some b =>
      refine (hv.walkFixedBlockBy fun t ht => h t ?_).part rfl
      have := nesting_le_of_mem ht
      simp only [elseNesting]
      omega

/-- At a nesting that the statement fits in, walking it agrees with the observer's account of it. -/
lemma walkStmtWithin {scope : Scope} {k : Nat} {s : Stmt} {c : Context} (hk : s.nesting ≤ k) :
    Agrees (fun own => (own, scope)) s c (v.walkStmtWithin k) (o.stmt scope c s) := by
  induction k generalizing s c with
  | zero => cases s <;> simp [Stmt.nesting] at hk
  | succ k ih =>
    -- The hooks of a statement are called for all but anchors and nested blocks.
    have hparts : Agrees (fun own => (own, scope)) s c (v.inStmt (v.walkStmtWithin k)) _ :=
      hv.inStmt fun t ht c => ih (by omega)
    have hnode := Agrees.around (Agrees.look fun s => o.pre (.stmt s)).beside hparts
      (Agrees.look fun s => o.post (.stmt s)).beside
    rw [Visitor.walkStmtWithin, hv.visitStmt, hv.endVisitStmt]
    refine .node_bind ?_
    cases s with
    | declare i slot => exact hv.walkDeclaration scope _ c i slot
    | block b =>
      refine (hv.walkBlockBy fun t ht c => ih ?_).part rfl
      have := nesting_le_of_mem ht
      simp only [Stmt.nesting] at hk
      omega
    | eval i e => exact hnode
    | ret i value => cases value <;> exact hnode
    | branch i cond onTrue onFalse => exact hnode

/-- The walk over a body agrees with the observer's account of its block. -/
lemma walkBody (scope : Scope) (b : Block) (c : Context) :
    Agrees (fun own => (own, scope)) b c v.walkBody (o.block scope (c.enter .block .fixed) b) :=
  .node_bind (hv.walkFixedBlockBy fun s hs c => hv.walkStmtWithin (by
    have := nesting_le_of_mem hs
    omega))

/-! ### Declarations -/

lemma walkTag (t : Tag) (c : Context) :
    Agrees id () c (v.walkTag t) (o.node (.tag t) (c.enter .tag .fixed) (pure ())) := by
  rw [Visitor.walkTag, hv.visitTag, hv.endVisitTag]
  exact (Agrees.around (.look fun _ => o.pre (.tag t)) (.pure ())
    (.look fun _ => o.post (.tag t))).inFrame_discard

/-- The annotations of a node are observed and kept. -/
lemma inTags {ν : Type} {n : ν} {c : Context} {get : ν → List Tag} {put : ν → List Tag → ν}
    (h : put n (get n) = n) : Agrees id n c (v.inTags get put) (o.tags c (get n)) := by
  have htags : Agrees id () c (v.walkTags (get n))
      (o.tags c (get n) >>= fun _ => pure (get n)) := by
    rw [Visitor.walkTags, hv.keepTags]
    exact (Agrees.forM fun t _ => hv.walkTag t c).bind fun _ => .pure (get n)
  have hput : Agrees id n c (setNode (put n (get n))) (pure () : EStateM Fault σ Unit) := by
    rw [h]
    exact .setNode
  have hpart : Agrees id n c (part () (fun _ => n) (v.walkTags (get n))) _ := htags.part rfl
  have := hpart.bind_pure (k := fun tags => setNode (put n tags)) hput
  rw [bind_pure_unit] at this
  exact .node_bind this

lemma walkField (f : Field) (c : Context) : Agrees id f c v.walkField (o.field c f) := by
  rw [Visitor.walkField, hv.visitField, hv.endVisitField]
  exact (Agrees.around (.look fun f => o.pre (.field f)) (hv.inTags rfl)
    (.look fun f => o.post (.field f))).inFrame_discard

lemma walkParameter (p : Variable) (c : Context) :
    Agrees id p c v.walkParameter (o.parameter c p) := by
  rw [Visitor.walkParameter, hv.visitParameter, hv.endVisitParameter]
  exact (Agrees.around (.look fun p => o.pre (.parameter p)) (.pure ())
    (.look fun p => o.post (.parameter p))).inFrame_discard

/-- The walk over a method's body agrees with the observer's account of it, in the scope of the
method. -/
lemma inBody (fields : List Field) (m : Method) (c : Context) :
    Agrees (fun own => (own, fields)) m c v.inBody (o.body fields c m) := by
  refine .node_bind ?_
  rw [Observer.body]
  cases hb : m.body with
  | none => exact .pure ()
  | some b =>
    refine (hv.walkBody ⟨m.owner, fields, m.locals⟩ b c).zoom (fun _ => rfl) fun _ _ _ => ?_
    -- What is put back is the method itself, up to how its body is written.
    rw [← hb]

/-- The walk over a method agrees with the observer's account of it, in the scope of the type's
fields. -/
lemma walkMethod (fields : List Field) (m : Method) (c : Context) :
    Agrees (fun own => (own, fields)) m c v.walkMethod (o.method fields c m) := by
  have hparameters : Agrees id m (c.enter .method .fixed) v.inParameters
      (m.parameters.forM (o.parameter (c.enter .method .fixed))) :=
    .node_bind ((Agrees.each fun p _ => hv.walkParameter p _).part rfl)
  have hparts : Agrees (fun own => (own, fields)) m (c.enter .method .fixed) v.inMethod _ :=
    (hv.inTags rfl).beside.bind fun _ => hparameters.beside.bind fun _ => hv.inBody fields m _
  rw [Visitor.walkMethod, hv.visitMethod, hv.endVisitMethod]
  exact (Agrees.around (Agrees.look fun m => o.pre (.method m)).beside hparts
    (Agrees.look fun m => o.post (.method m)).beside).inFrame_discard

omit hv in
lemma enclosedBy {ν : Type} {n : ν} {c : Context} {id' : TypeId} {w : Visit σ ν Unit}
    {m : EStateM Fault σ Unit} (h : Agrees id n { c with enclosingType := some id' } w m) :
    Agrees id n c (Visitor.enclosedBy id' w) m := by
  intro own
  have hw := h own
  simp only [Visitor.enclosedBy, bind_apply, context_apply, mapContext_apply]
  cases hm : m own with
  | ok _ own' =>
    rw [hm] at hw
    simp only [hw]
  | error f own' =>
    rw [hm] at hw
    obtain ⟨c', hw⟩ := hw
    exact ⟨c', by rw [hw]⟩

/-- The walk over a type agrees with the observer's account of it. -/
lemma walkType (t : DeclaredType) (c : Context) : Agrees id t c v.walkType (o.type c t) := by
  have hfields : Agrees id t (Observer.insideType c t) v.inFields
      (t.fields.forM (o.field (Observer.insideType c t))) :=
    .node_bind ((Agrees.each fun f _ => hv.walkField f _).part rfl)
  have hmethods : Agrees id t (Observer.insideType c t) v.inMethods
      (t.methods.forM (o.method t.fields (Observer.insideType c t))) :=
    .node_bind ((Agrees.each fun m _ => hv.walkMethod t.fields m _).zoom (fun _ => rfl)
      fun _ _ _ => rfl)
  have hparts : Agrees id t (Observer.insideType c t) v.inType _ :=
    (hv.inTags rfl).bind fun _ => hfields.bind fun _ => hmethods
  rw [Visitor.walkType, hv.visitType, hv.endVisitType]
  refine .node_bind ?_
  exact (enclosedBy (Agrees.around (.look fun t => o.pre (.type t)) hparts
    (.look fun t => o.post (.type t)))).inFrame_discard

/-- A program is observed type by type. -/
theorem walkProgram (p : Program) : Agrees id p {} v.walkProgram (o.program p) :=
  .node_bind ((Agrees.each fun t _ => hv.walkType t _).part rfl)

end Visitor.Observes
end Walkers

/-! ## How a computation ends -/

section Outcome

variable {σ : Type}

/-- The state that a computation ends in, or its failure. -/
def outcome (m : EStateM Fault σ Unit) (s : σ) : Except Fault σ :=
  match m s with
  | .ok _ s => .ok s
  | .error f _ => .error f

lemma outcome_pure (s : σ) : outcome (pure ()) s = .ok s := rfl

lemma outcome_bind (m l : EStateM Fault σ Unit) (s : σ) :
    outcome (m >>= fun _ => l) s = outcome m s >>= outcome l := by
  simp only [outcome, EStateM_bind_apply]
  cases m s <;> rfl

/-- What comes of an observed node, by what its opening hook answers. -/
lemma Observer.outcome_node (o : Observer σ) (x : Node) (c : Context) (m : EStateM Fault σ Unit)
    (s : σ) :
    outcome (o.node x c m) s = match o.pre x c s with
      | .ok true s => outcome m s >>= outcome (o.post x c)
      | .ok false s => outcome (o.post x c) s
      | .error f _ => .error f := by
  rw [outcome, Observer.node, EStateM_bind_apply]
  cases o.pre x c s with
  | error f s => rfl
  | ok descend s =>
    cases descend with
    | true => exact outcome_bind m (o.post x c) s
    | false => rfl

/-- Steps that fail at an element or remember it, in a way that no failure depends on, fail at the
first element that is at fault. -/
lemma outcome_forM {α : Type} {step : α → EStateM Fault σ Unit} {fault? : σ → α → Option Fault}
    {log : σ → α → σ}
    (hstep : ∀ a s, outcome (step a) s = match fault? s a with
      | some f => .error f
      | none => .ok (log s a))
    (hlog : ∀ s a, fault? (log s a) = fault? s) (list : List α) (s : σ) :
    outcome (list.forM step) s = match list.findSome? (fault? s) with
      | some f => .error f
      | none => .ok (list.foldl log s) := by
  induction list generalizing s with
  | nil => rfl
  | cons a rest ih =>
    rw [List.forM, outcome_bind, hstep, List.findSome?_cons]
    cases fault? s a with
    | some f => rfl
    | none =>
      -- What is remembered of the head has no influence on the faults of the tail.
      have hrest := ih (log s a)
      rw [hlog] at hrest
      exact hrest

/-- A walk ends as the observation of the node does, and leaves the node as it was. -/
lemma Visit.Agrees.outcome {ν : Type} {n : ν} {c : Context} {w : Visit σ ν Unit}
    {m : EStateM Fault σ Unit} (h : Agrees id n c w m) (own : σ) :
    match outcome m own with
    | .ok own' => w ⟨n, c, own⟩ = .ok () ⟨n, c, own'⟩
    | .error f => ∃ s, w ⟨n, c, own⟩ = .error f s ∧ s.node = n := by
  have hw := h own
  rw [DeclIR.outcome]
  cases hm : m own with
  | ok _ own' =>
    rw [hm] at hw
    exact hw
  | error f own' =>
    rw [hm] at hw
    obtain ⟨c', hw⟩ := hw
    exact ⟨_, hw, rfl⟩

end Outcome
end DeclIR
