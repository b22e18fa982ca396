import DeclIR.Proofs.Traversal.Observation
import DeclIR.Proofs.Traversal.Tree

/-!
# Visitors for some kinds of nodes

A visitor that has no rule for a kind of node refuses it, and the traversal fails there.  The other
places where a traversal can fail are anchors that do not resolve, which fail before they are
offered to the visitor.  `Program.points` lists both, in the order that a walk comes to them.

A traversal by such a visitor fails at the first point that is at fault, and succeeds if there is
none (`Program.traverse_refusing`).  So no node is passed over, whatever kind it is of.
-/

namespace DeclIR

open Visit

/-! ## Points -/

/-- Where a walk can fail that is not told to leave anything out. -/
inductive Point where
  | node (x : Node)
  /-- An anchor that does not resolve. -/
  | stray (a : Anchor)

namespace Point

/-- The node, if it is one. -/
def node? : Point → Option Node
  | node x => some x
  | stray _ => none

/-- The anchor, if it is one that does not resolve. -/
def stray? : Point → Option Anchor
  | node _ => none
  | stray a => some a

/-- Why a walk fails at a point, if it does, where the visitor of this name handles some kinds. -/
def fault? (handles : NodeKind → Bool) (visitor : String) : Point → Option Fault
  | node x => if handles x.kind then none else some (.unsupportedNode visitor x.kind x.info)
  | stray a => some (.danglingSlot a.slot a.info)

end Point

/-- The anchors among these that do not resolve. -/
def Scope.strays (scope : Scope) (anchors : List Anchor) : List Anchor :=
  anchors.filter fun a => (scope.resolve? a.slot).isNone

/-- The anchors in a type that do not resolve. -/
def DeclaredType.strays (t : DeclaredType) : List Anchor :=
  t.methods.flatMap fun m => (m.scope t.fields).strays m.anchors

/-- The points in an expression. -/
def Expr.points : Expr → List Point
  | .instanceField i f r => .node (.expr (.instanceField i f r)) :: r.points
  | .binary i op l r => .node (.expr (.binary i op l r)) :: (l.points ++ r.points)
  | e => [.node (.expr e)]

/-- The points in the initializer of a variable. -/
def Declared.points (d : Declared) : List Point := d.base.initializer?.toList.flatMap Expr.points

/-- The points at an anchor. -/
def Scope.points (scope : Scope) (a : Anchor) : List Point :=
  match scope.resolve? a.slot with
  | none => [.stray a]
  | some d => .node (.declaration a.slot a.info d) :: d.points

mutual

/-- The points in a statement. -/
def Stmt.points (scope : Scope) : Stmt → List Point
  | .declare info slot => scope.points ⟨info, slot⟩
  | .eval i e => .node (.stmt (.eval i e)) :: e.points
  | .ret i none => [.node (.stmt (.ret i none))]
  | .ret i (some e) => .node (.stmt (.ret i (some e))) :: e.points
  | .branch i cond onTrue onFalse =>
    .node (.stmt (.branch i cond onTrue onFalse)) ::
      (cond.points ++ (Block.points scope onTrue ++ elsePoints scope onFalse))
  | .block b => Block.points scope b

/-- The points in a block. -/
def Block.points (scope : Scope) : BlockOf Stmt → List Point
  | ⟨info, stmts⟩ => .node (.block ⟨info, stmts⟩) :: stmtsPoints scope stmts

/-- The points in an alternative that may be absent. -/
def elsePoints (scope : Scope) : Option (BlockOf Stmt) → List Point
  | none => []
  | some b => Block.points scope b

/-- The points in some statements. -/
def stmtsPoints (scope : Scope) : List Stmt → List Point
  | [] => []
  | s :: rest => s.points scope ++ stmtsPoints scope rest

end

/-- The points in the annotations of a node. -/
def tagPoints (tags : List Tag) : List Point := tags.map fun t => .node (.tag t)

/-- The points in a field. -/
def Field.points (f : Field) : List Point := .node (.field f) :: tagPoints f.tags

/-- The points in a method of a type that has these fields. -/
def Method.points (fields : List Field) (m : Method) : List Point :=
  .node (.method m) :: (tagPoints m.tags ++ (m.parameters.map (fun p => .node (.parameter p)) ++
    m.body.toList.flatMap (Block.points (m.scope fields))))

/-- The points in a declared type. -/
def DeclaredType.points (t : DeclaredType) : List Point :=
  .node (.type t) :: (tagPoints t.tags ++ (t.fields.flatMap Field.points ++
    t.methods.flatMap (Method.points t.fields)))

/-- The points in a program, in the order that a walk comes to them. -/
def Program.points (p : Program) : List Point := p.types.flatMap DeclaredType.points

/-! ## Refusing visitors -/

variable {σ : Type}

/-- A visitor with no hook but the general one, which accepts the nodes of the kinds that it handles
and refuses all others. -/
def Visitor.refusing (handles : NodeKind → Bool) (visitor : String) : Visitor σ where
  visitNode kind info :=
    if handles kind then pure true else throw (.unsupportedNode visitor kind info)

/-- A refusing visitor as an observer. -/
def Observer.refusing (handles : NodeKind → Bool) (visitor : String) : Observer σ where
  pre x _ := fun own => match (Point.node x).fault? handles visitor with
    | some f => .error f own
    | none => .ok true own
  post _ _ := pure ()

/-- Every hook of a refusing visitor falls back to the general one. -/
theorem Visitor.refusing_observes (handles : NodeKind → Bool) (visitor : String) :
    (refusing handles visitor : Visitor σ).Observes (.refusing handles visitor) := by
  -- Each hook offers the kind and the provenance of its node, so one equation serves all of them.
  have hoffer {ν : Type} (x : ν → Node) (kind : ν → NodeKind) (info : ν → Provenance)
      (hkind : ∀ n, (x n).kind = kind n) (hinfo : ∀ n, (x n).info = info n) :
      offer (refusing handles visitor : Visitor σ).visitNode kind info =
        look fun n => (Observer.refusing handles visitor).pre (x n) := by
    funext s
    simp only [offer, refusing, bind_apply, node_apply, part_apply, look, Observer.refusing,
      Point.fault?, hkind, hinfo]
    cases handles (kind s.node) <;> rfl
  constructor
  case visitType => exact hoffer .type _ _ (fun _ => rfl) fun _ => rfl
  case visitField => exact hoffer .field _ _ (fun _ => rfl) fun _ => rfl
  case visitMethod => exact hoffer .method _ _ (fun _ => rfl) fun _ => rfl
  case visitParameter => exact hoffer .parameter _ _ (fun _ => rfl) fun _ => rfl
  case visitTag =>
    intro t
    funext s
    simp only [refusing, look, Observer.refusing, Point.fault?, Node.kind, Node.info]
    by_cases h : handles .tag = true <;> simp [h]
  case visitBlock => exact hoffer .block _ _ (fun _ => rfl) fun _ => rfl
  case visitDeclaration =>
    intro slot info
    exact hoffer (.declaration slot info) _ _ (fun _ => rfl) fun _ => rfl
  case visitStmt => exact hoffer .stmt _ _ (fun _ => rfl) fun _ => rfl
  case visitExpr => exact hoffer .expr _ _ (fun _ => rfl) fun _ => rfl
  all_goals
    intros
    rfl

/-! ## What a refusing visitor comes to -/

/-- The computation fails at the first of the points that is at fault, and does nothing if there is
none.  The points are the nodes of the trees, from the outside in, and the anchors that do not
resolve. -/
structure Meets (handles : NodeKind → Bool) (visitor : String) (m : EStateM Fault σ Unit)
    (forest : List Tree) (strays : List Anchor) (points : List Point) : Prop where
  apply_eq : ∀ own, m own = match points.findSome? (Point.fault? handles visitor) with
    | some f => .error f own
    | none => .ok () own
  nodes_eq : points.filterMap Point.node? = forestNodes forest
  strays_eq : points.filterMap Point.stray? = strays

namespace Meets

variable {handles : NodeKind → Bool} {visitor : String} {c : Context}

lemma pure : Meets handles visitor (pure () : EStateM Fault σ Unit) [] [] [] where
  apply_eq _ := rfl
  nodes_eq := rfl
  strays_eq := rfl

/-- Meeting goes through a sequence: the second account is entered only where no point of the first
is at fault. -/
lemma bind {m l : EStateM Fault σ Unit} {a b : List Tree} {strays strays' : List Anchor}
    {points points' : List Point} (hm : Meets handles visitor m a strays points)
    (hl : Meets handles visitor l b strays' points') :
    Meets handles visitor (m >>= fun _ => l) (a ++ b) (strays ++ strays') (points ++ points') where
  apply_eq own := by
    rw [EStateM_bind_apply, hm.apply_eq, List.findSome?_append]
    cases points.findSome? _ with
    | some f => rfl
    | none => exact hl.apply_eq own
  nodes_eq := by rw [List.filterMap_append, hm.nodes_eq, hl.nodes_eq, forestNodes_append]
  strays_eq := by rw [List.filterMap_append, hm.strays_eq, hl.strays_eq]

/-- Nodes with their parts, one after the other. -/
lemma forM {α : Type} {list : List α} {m : α → EStateM Fault σ Unit} {tree : α → Tree}
    {strays : α → List Anchor} {points : α → List Point}
    (h : ∀ a, Meets handles visitor (m a) [tree a] (strays a) (points a)) :
    Meets handles visitor (list.forM m) (list.map tree) (list.flatMap strays)
      (list.flatMap points) := by
  induction list with
  | nil => exact pure
  | cons a rest ih => exact (h a).bind ih

/-- A node is met before its parts. -/
lemma node (x : Node) (slot : Slot) {m : EStateM Fault σ Unit} {parts : List Tree}
    {strays : List Anchor} {points : List Point}
    (h : Meets handles visitor m parts strays points) :
    Meets handles visitor ((Observer.refusing handles visitor).node x c m) [.node x slot parts]
      strays (.node x :: points) where
  apply_eq own := by
    rw [Observer.node, EStateM_bind_apply, List.findSome?_cons]
    simp only [Observer.refusing]
    -- If the node itself is not at fault, the first point at fault is one of its parts.
    cases (Point.node x).fault? handles visitor with
    | some f => rfl
    | none =>
      simp only [if_true, EStateM_bind_apply, h.apply_eq]
      cases points.findSome? _ <;> rfl
  nodes_eq := by
    rw [List.filterMap_cons, h.nodes_eq]
    simp [Point.node?, forestNodes, Tree.nodes]
  strays_eq := by
    rw [List.filterMap_cons, h.strays_eq]
    rfl

/-! ### Expressions and statements -/

lemma expr (e : Expr) (c : Context) :
    Meets (σ := σ) handles visitor ((Observer.refusing handles visitor).expr c e) [e.tree] []
      e.points := by
  induction e generalizing c with
  | instanceField i f r ih => exact node _ _ (ih _)
  | binary i op l r ihl ihr => exact node _ _ ((ihl _).bind (ihr _))
  | _ => exact node _ _ pure

lemma initializer (d : Declared) (c : Context) :
    Meets (σ := σ) handles visitor ((Observer.refusing handles visitor).initializer c d) d.trees []
      d.points := by
  unfold Observer.initializer Declared.trees Declared.points Variable.initializer?
  cases d.base.declaration with
  | none => exact pure
  | some x => simpa using expr x.initializer c

/-- An anchor that does not resolve fails before it is offered as a node. -/
lemma anchor (scope : Scope) (info : Provenance) (slot : VarSlot) (c : Context) :
    Meets (σ := σ) handles visitor ((Observer.refusing handles visitor).anchor scope c info slot)
      ((scope.resolve? slot).toList.map (Declared.anchorTree slot info))
      (scope.strays [⟨info, slot⟩]) (scope.points ⟨info, slot⟩) := by
  have hstrays : scope.strays [⟨info, slot⟩] =
      if (scope.resolve? slot).isNone then [⟨info, slot⟩] else [] := List.filter_cons
  unfold Observer.anchor Scope.points
  rw [hstrays]
  cases scope.resolve? slot with
  | none =>
    exact ⟨fun _ => rfl, rfl, rfl⟩
  | some d => exact node _ _ (initializer d c)

variable {scope : Scope}

mutual

/-- The account of a statement meets its nodes, its dangling anchors and its points. -/
lemma stmt (c : Context) : ∀ x : Stmt,
    Meets (σ := σ) handles visitor ((Observer.refusing handles visitor).stmt scope c x)
      (x.trees scope) (scope.strays x.anchors) (x.points scope)
  | .declare info slot => anchor scope info slot c
  | .eval i e => node _ _ (expr e c)
  | .ret i (some e) => node _ _ (expr e c)
  | .ret i none => node _ _ pure
  | .branch i cond onTrue onFalse => by
    rw [Stmt.anchors, Scope.strays, List.filter_append]
    exact node _ _ ((expr cond c).bind ((block .fixed _ onTrue).bind (alternative c onFalse)))
  | .block b => block .statement c b

lemma block (slot : Slot) (c : Context) : ∀ b : BlockOf Stmt,
    Meets (σ := σ) handles visitor ((Observer.refusing handles visitor).block scope c b)
      [Block.tree scope slot b] (scope.strays (Block.anchors b)) (Block.points scope b)
  | ⟨_, list⟩ => node _ _ (stmts c list)

lemma alternative (c : Context) : ∀ b : Option (BlockOf Stmt),
    Meets (σ := σ) handles visitor ((Observer.refusing handles visitor).alternative scope c b)
      (elseTrees scope b) (scope.strays (elseAnchors b)) (elsePoints scope b)
  | none => pure
  | some b => block .fixed _ b

lemma stmts (c : Context) : ∀ list : List Stmt,
    Meets (σ := σ) handles visitor ((Observer.refusing handles visitor).stmts scope c list)
      (stmtsTrees scope list) (scope.strays (stmtsAnchors list)) (stmtsPoints scope list)
  | [] => pure
  | x :: rest => by
    rw [stmtsAnchors, Scope.strays, List.filter_append]
    exact (stmt _ x).bind (stmts c rest)

end

/-! ### Declarations -/

/-- Nodes without parts, one after the other. -/
lemma leaves {α : Type} (x : α → Node) (list : List α) (c : Context) :
    Meets (σ := σ) handles visitor
      (list.forM fun a => (Observer.refusing handles visitor).node (x a) c (Pure.pure ()))
      (list.map fun a => .node (x a) .fixed []) [] (list.map fun a => .node (x a)) := by
  induction list with
  | nil => exact pure
  | cons a rest ih => exact (node (x a) .fixed pure).bind ih

lemma field (f : Field) (c : Context) :
    Meets (σ := σ) handles visitor ((Observer.refusing handles visitor).field c f)
      [f.tree] [] f.points :=
  node _ _ (leaves .tag f.tags _)

lemma body (fields : List Field) (m : Method) (c : Context) :
    Meets (σ := σ) handles visitor ((Observer.refusing handles visitor).body fields c m)
      (m.body.toList.map (Block.tree (m.scope fields) .fixed)) ((m.scope fields).strays m.anchors)
      (m.body.toList.flatMap (Block.points (m.scope fields))) := by
  unfold Observer.body Method.anchors
  cases m.body with
  | none => exact pure
  | some b =>
    rw [Option.toList_some, List.map_singleton, List.flatMap_singleton]
    exact block .fixed _ b

/-- The account of a method meets what its tree shows and the anchors of its body that dangle. -/
lemma method (fields : List Field) (m : Method) (c : Context) :
    Meets (σ := σ) handles visitor ((Observer.refusing handles visitor).method fields c m)
      [m.tree fields] ((m.scope fields).strays m.anchors) (m.points fields) := by
  unfold Method.tree Method.points
  rw [List.append_assoc]
  exact node _ _ ((leaves .tag m.tags _).bind ((leaves .parameter m.parameters _).bind
    (body fields m _)))

/-- The anchors of a type that do not resolve are those of its methods. -/
lemma type (t : DeclaredType) (c : Context) :
    Meets (σ := σ) handles visitor ((Observer.refusing handles visitor).type c t) [t.tree] t.strays
      t.points := by
  have hfields : Meets handles visitor
      (t.fields.forM ((Observer.refusing handles visitor : Observer σ).field _))
      (t.fields.map Field.tree) (t.fields.flatMap fun _ => []) (t.fields.flatMap Field.points) :=
    .forM fun f => field f (Observer.insideType c t)
  have hmethods : Meets handles visitor
      (t.methods.forM ((Observer.refusing handles visitor : Observer σ).method t.fields _))
      (t.methods.map (Method.tree t.fields)) t.strays
      (t.methods.flatMap (Method.points t.fields)) :=
    .forM fun m => method t.fields m (Observer.insideType c t)
  have hnone : t.fields.flatMap (fun _ => ([] : List Anchor)) = [] := by simp
  unfold DeclaredType.tree DeclaredType.points
  rw [hnone] at hfields
  rw [List.append_assoc]
  exact node _ _ ((leaves .tag t.tags _).bind (hfields.bind hmethods))

/-- The account of a program meets its forest, the dangling anchors of its methods and its points,
in walk order. -/
lemma program (p : Program) :
    Meets (σ := σ) handles visitor ((Observer.refusing handles visitor).program p) p.forest
      (p.types.flatMap DeclaredType.strays) p.points :=
  forM fun t => type t {}

end Meets

/-! ## Traversals by refusing visitors -/

/-- Points at which nothing is at fault are nodes of kinds that are handled. -/
lemma Point.findSome?_eq_none_iff {handles : NodeKind → Bool} {visitor : String}
    {points : List Point} :
    points.findSome? (fault? handles visitor) = none ↔
      points.filterMap stray? = [] ∧ ∀ x ∈ points.filterMap node?, handles x.kind = true := by
  induction points with
  | nil => simp
  | cons point rest ih =>
    rw [List.findSome?_cons, List.filterMap_cons, List.filterMap_cons]
    cases point with
    | stray a => simp [fault?, stray?]
    | node x =>
      by_cases h : handles x.kind = true
      · simp [fault?, stray?, node?, h, ih]
      · simp [fault?, stray?, node?, h]

/-- No anchor is astray where each stands for a variable in reach of its method. -/
lemma Program.strays_eq_nil_iff {p : Program} :
    p.types.flatMap DeclaredType.strays = [] ↔ p.Resolves := by
  simp only [List.flatMap_eq_nil_iff, DeclaredType.strays, Scope.strays, List.filter_eq_nil_iff,
    Option.isNone_iff_eq_none, ← Option.ne_none_iff_isSome, Resolves, ne_eq]

/-- A traversal by a visitor that handles some kinds of nodes ends with the fault of the first point
at fault, and succeeds if there is none: if each anchor resolves and all nodes that there are calls
for are of kinds that are handled.  The nodes among the points are those that a visitor is called
for that accepts everything, in the same order, and the others are the anchors that do not
resolve. -/
theorem Program.traverse_refusing (handles : NodeKind → Bool) (visitor : String) (p : Program)
    (own : σ) :
    (p.points.findSome? (Point.fault? handles visitor)).elim
        (p.traverse (.refusing handles visitor) own = .ok () ⟨p, {}, own⟩)
        (fun f => ∃ s, p.traverse (.refusing handles visitor) own = .error f s ∧ s.node = p) ∧
      ((∃ s, p.traverse (.refusing handles visitor) own = .ok () s) ↔
        p.Resolves ∧ ∀ call ∈ p.calls fun _ _ => true, handles call.node.kind = true) ∧
      p.points.filterMap Point.node? =
        ((p.calls fun _ _ => true).filter (·.phase = .pre)).map (·.node) ∧
      p.points.filterMap Point.stray? = p.types.flatMap DeclaredType.strays := by
  -- A visitor that accepts everything is called for every node of the forest.
  have hcalls : (p.calls fun _ _ => true) = forestListing {} p.forest :=
    forestCalls_of_accepts (fun _ _ => rfl) {} [] p.forest
  have hmeets : Meets handles visitor ((Observer.refusing handles visitor : Observer σ).program p)
      p.forest _ p.points := .program p
  have hnone : p.points.findSome? (Point.fault? handles visitor) = none ↔
      p.Resolves ∧ ∀ call ∈ p.calls fun _ _ => true, handles call.node.kind = true := by
    rw [Point.findSome?_eq_none_iff, hmeets.strays_eq, hmeets.nodes_eq, strays_eq_nil_iff, hcalls,
      forall_forestListing_iff (fun x => handles x.kind = true)]
  have hrun := (Visitor.refusing_observes handles visitor).walkProgram p own
  rw [hmeets.apply_eq] at hrun
  refine ⟨?_, ?_, ?_, hmeets.strays_eq⟩
  · cases hf : p.points.findSome? (Point.fault? handles visitor) with
    | none =>
      rw [hf] at hrun
      exact hrun
    | some f =>
      rw [hf] at hrun
      obtain ⟨c, hrun⟩ := hrun
      exact ⟨_, hrun, rfl⟩
  · rw [← hnone]
    -- A run that fails with the fault of a point does not succeed.
    cases hf : p.points.findSome? (Point.fault? handles visitor) with
    | none =>
      rw [hf] at hrun
      exact iff_of_true ⟨_, hrun⟩ rfl
    | some f =>
      rw [hf] at hrun
      obtain ⟨c, hrun⟩ := hrun
      refine iff_of_false ?_ (Option.some_ne_none f)
      rintro ⟨s, hok⟩
      cases hrun.symm.trans hok
  · rw [hmeets.nodes_eq, hcalls, forestNodes_listing]

end DeclIR
