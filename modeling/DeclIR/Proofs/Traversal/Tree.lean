import DeclIR.Proofs.Code.Anchors
import DeclIR.Proofs.Traversal.Observer

/-!
# The tree of a program

The nodes of a program form a tree: each node has a place, and below it are the nodes that belong to
it, in the order they are visited (`Program.forest`).  An initializer belongs to the anchors of its
variable and not to the variable itself.

A traversal calls a hook before and one after the nodes below each node, and leaves these out where
the first hook says so.  `Program.calls` is the sequence of calls for any way to answer.  Neither
the tree nor the calls mention frames, edits or failures.
-/

namespace DeclIR

/-! ## Trees -/

/-- A node, the kind of place it is in, and the nodes below it. -/
inductive Tree where
  | node (x : Node) (slot : Slot) (parts : List Tree)

/-- An expression with its operands. -/
def Expr.tree : Expr → Tree
  | .instanceField i f r => .node (.expr (.instanceField i f r)) .expression [r.tree]
  | .binary i op l r => .node (.expr (.binary i op l r)) .expression [l.tree, r.tree]
  | e => .node (.expr e) .expression []

/-- What is below an anchor of a variable: the initializer, if one is attached. -/
def Declared.trees (d : Declared) : List Tree := d.base.initializer?.toList.map Expr.tree

/-- An anchor of the variable `d`. -/
def Declared.anchorTree (slot : VarSlot) (info : Provenance) (d : Declared) : Tree :=
  .node (.declaration slot info d) .statement d.trees

mutual

/-- A statement as an element of a block.  An anchor that does not resolve has no node. -/
def Stmt.trees (scope : Scope) : Stmt → List Tree
  | .declare info slot => (scope.resolve? slot).toList.map (Declared.anchorTree slot info)
  | .eval i e => [.node (.stmt (.eval i e)) .statement [e.tree]]
  | .ret i value => [.node (.stmt (.ret i value)) .statement (value.toList.map Expr.tree)]
  | .branch i cond onTrue onFalse =>
    [.node (.stmt (.branch i cond onTrue onFalse)) .statement
      (cond.tree :: Block.tree scope .fixed onTrue :: elseTrees scope onFalse)]
  | .block b => [Block.tree scope .statement b]

/-- A block with its statements. -/
def Block.tree (scope : Scope) (slot : Slot) : BlockOf Stmt → Tree
  | ⟨info, stmts⟩ => .node (.block ⟨info, stmts⟩) slot (stmtsTrees scope stmts)

/-- An alternative that may be absent. -/
def elseTrees (scope : Scope) : Option (BlockOf Stmt) → List Tree
  | none => []
  | some b => [Block.tree scope .fixed b]

/-- Statements in order. -/
def stmtsTrees (scope : Scope) : List Stmt → List Tree
  | [] => []
  | s :: rest => s.trees scope ++ stmtsTrees scope rest

end

/-- An annotation. -/
def Tag.tree (t : Tag) : Tree := .node (.tag t) .fixed []

/-- A field with its annotations. -/
def Field.tree (f : Field) : Tree := .node (.field f) .fixed (f.tags.map Tag.tree)

/-- A parameter. -/
def Variable.parameterTree (v : Variable) : Tree := .node (.parameter v) .fixed []

/-- The variables in reach of the method's anchors, in a type that has these fields. -/
def Method.scope (fields : List Field) (m : Method) : Scope := ⟨m.owner, fields, m.locals⟩

/-- A method with its annotations, its parameters and its body, in a type that has these fields. -/
def Method.tree (fields : List Field) (m : Method) : Tree :=
  .node (.method m) .fixed <|
    m.tags.map Tag.tree ++ m.parameters.map Variable.parameterTree ++
      m.body.toList.map (Block.tree (m.scope fields) .fixed)

/-- A declared type with its annotations, its fields and its methods. -/
def DeclaredType.tree (t : DeclaredType) : Tree :=
  .node (.type t) .fixed <|
    t.tags.map Tag.tree ++ t.fields.map Field.tree ++ t.methods.map (Method.tree t.fields)

/-- The declared types of a program by position. -/
def Program.forest (p : Program) : List Tree := p.types.map DeclaredType.tree

/-- Each anchor of a program stands for a variable in reach of its method. -/
def Program.Resolves (p : Program) : Prop :=
  ∀ t ∈ p.types, ∀ m ∈ t.methods, ∀ a ∈ m.anchors, ((m.scope t.fields).resolve? a.slot).isSome

/-! ## Calls -/

namespace Node

/-- The kind that a node is offered as. -/
def kind : Node → NodeKind
  | type _ => .declaredType
  | field _ => .field
  | method _ => .method
  | parameter _ => .parameter
  | tag _ => .tag
  | block _ => .block
  | declaration .. => .declaration
  | stmt s => s.kind
  | expr e => e.kind

/-- The provenance that a node is offered with; that of an anchor is its own and not the
variable's. -/
def info : Node → Provenance
  | type t => t.info
  | field f => f.info
  | method m => m.info
  | parameter v => v.info
  | tag t => t.info
  | block b => b.info
  | declaration _ info _ => info
  | stmt s => s.info
  | expr e => e.info

/-- The declared type around a node's parts, given the one around the node. -/
def enclosing? (outer : Option TypeId) : Node → Option TypeId
  | type t => some t.id
  | _ => outer

end Node

/-- Whether a hook is called before or after the parts of its node. -/
inductive Phase where
  | pre
  | post
deriving DecidableEq, Repr

/-- Where a node is: the kinds of the nodes from the innermost one outwards, and the declared type
around it. -/
structure Surroundings where
  ancestry : List NodeKind := []
  enclosingType : Option TypeId := none
deriving DecidableEq, Repr

/-- The call of a hook: its node, and what the context answers to each question then. -/
structure Call extends Surroundings where
  phase : Phase
  node : Node
  canRemove : Bool
  changed : Bool

/-- The call of a hook in a context. -/
def Call.at (phase : Phase) (x : Node) (c : Context) : Call where
  ancestry := c.ancestry
  enclosingType := c.enclosingType
  phase
  node := x
  canRemove := c.canRemove
  changed := c.changed

/-- What a hook that knows only kinds and provenances is told in a call. -/
structure Glimpse extends Surroundings where
  phase : Phase
  kind : NodeKind
  info : Provenance
deriving DecidableEq, Repr

/-- What is told in a call by the node's kind and provenance. -/
def Call.glimpse (call : Call) : Glimpse where
  toSurroundings := call.toSurroundings
  phase := call.phase
  kind := call.node.kind
  info := call.node.info

namespace Surroundings

/-- Inside of a node that is in these surroundings. -/
def inside (s : Surroundings) (x : Node) : Surroundings :=
  ⟨x.kind :: s.ancestry, x.enclosing? s.enclosingType⟩

/-- The call for a node in these surroundings, where nothing has been changed. -/
def call (s : Surroundings) (phase : Phase) (x : Node) (slot : Slot) : Call where
  toSurroundings := s.inside x
  phase
  node := x
  canRemove := slot = .statement
  changed := false

end Surroundings

mutual

/-- The calls for the nodes of a tree, if `seen` are the calls before and `answer` says, given the
calls before, at which calls the parts of the node are visited. -/
def Tree.calls (answer : List Call → Call → Bool) (s : Surroundings) (seen : List Call) :
    Tree → List Call
  | .node x slot parts =>
    let first := s.call .pre x slot
    let inner := if answer seen first then
      forestCalls answer (s.inside x) (seen ++ [first]) parts else []
    first :: inner ++ [s.call .post x slot]

/-- The calls for the nodes of some trees, one tree after the other. -/
def forestCalls (answer : List Call → Call → Bool) (s : Surroundings) (seen : List Call) :
    List Tree → List Call
  | [] => []
  | t :: rest =>
    let first := t.calls answer s seen
    first ++ forestCalls answer s (seen ++ first) rest

end

/-- The calls of a traversal of a program. -/
def Program.calls (p : Program) (answer : List Call → Call → Bool) : List Call :=
  forestCalls answer {} [] p.forest

/-- In these calls each node has one call before and one after those for the nodes inside of it. -/
inductive Nested : Surroundings → List Call → Prop
  | nil (s : Surroundings) : Nested s []
  | node {s : Surroundings} {x : Node} {inner rest : List Call} (slot : Slot)
      (hinner : Nested (s.inside x) inner) (hrest : Nested s rest) :
      Nested s (s.call .pre x slot :: inner ++ s.call .post x slot :: rest)

/-- Nested runs of calls in a row are nested. -/
lemma Nested.append {s : Surroundings} {a b : List Call} (ha : Nested s a) (hb : Nested s b) :
    Nested s (a ++ b) := by
  induction ha with
  | nil => exact hb
  | node slot hinner _ _ ih =>
    have h := Nested.node slot hinner (ih hb)
    simpa using h

section Calls

variable (answer : List Call → Call → Bool)

/-- The calls of a forest are those of its front and then those of the rest, which has seen the
front's. -/
lemma forestCalls_append (s : Surroundings) (seen : List Call) (a b : List Tree) :
    forestCalls answer s seen (a ++ b) =
      forestCalls answer s seen a ++
        forestCalls answer s (seen ++ forestCalls answer s seen a) b := by
  induction a generalizing seen with
  | nil => simp [forestCalls]
  | cons t rest ih => simp only [List.cons_append, forestCalls, ih, List.append_assoc]

mutual

/-- The calls of a tree are nested, whatever the watcher answers. -/
lemma Tree.nested_calls (s : Surroundings) (seen : List Call) :
    ∀ t : Tree, Nested s (t.calls answer s seen)
  | .node x slot parts => by
    unfold Tree.calls
    have hparts := nested_forestCalls (s.inside x) (seen ++ [s.call .pre x slot]) parts
    by_cases h : answer seen (s.call .pre x slot) = true
    · simpa [h] using Nested.node slot hparts (.nil s)
    · simpa [h] using Nested.node slot (.nil (s.inside x)) (.nil s)

/-- Whatever the answers are, the calls are nested as the nodes are. -/
lemma nested_forestCalls (s : Surroundings) (seen : List Call) :
    ∀ forest : List Tree, Nested s (forestCalls answer s seen forest)
  | [] => .nil s
  | t :: rest => by
    unfold forestCalls
    exact (Tree.nested_calls s seen t).append (nested_forestCalls s _ rest)

end

end Calls
/-! ## All calls -/

mutual

/-- The calls for all nodes of a tree. -/
def Tree.listing (s : Surroundings) : Tree → List Call
  | .node x slot parts =>
    s.call .pre x slot :: forestListing (s.inside x) parts ++ [s.call .post x slot]

/-- The calls for all nodes of some trees. -/
def forestListing (s : Surroundings) : List Tree → List Call
  | [] => []
  | t :: rest => t.listing s ++ forestListing s rest

end

lemma forestListing_append (s : Surroundings) (a b : List Tree) :
    forestListing s (a ++ b) = forestListing s a ++ forestListing s b := by
  induction a with
  | nil => rfl
  | cons t rest ih => simp only [List.cons_append, forestListing, ih, List.append_assoc]

lemma forestListing_map {α : Type} (s : Surroundings) (tree : α → Tree) (list : List α) :
    forestListing s (list.map tree) = list.flatMap fun a => (tree a).listing s := by
  induction list with
  | nil => rfl
  | cons a rest ih => simp only [List.map_cons, forestListing, ih, List.flatMap_cons]

section Accepted

variable {answer : List Call → Call → Bool}

mutual

/-- A watcher that accepts everything is called by the whole listing. -/
lemma Tree.calls_of_accepts (h : ∀ seen call, answer seen call = true) (s : Surroundings)
    (seen : List Call) : ∀ t : Tree, t.calls answer s seen = t.listing s
  | .node x slot parts => by
    simp only [Tree.calls, Tree.listing, h, if_true,
      forestCalls_of_accepts h (s.inside x) (seen ++ [s.call .pre x slot]) parts]

/-- All nodes are visited if each is accepted. -/
lemma forestCalls_of_accepts (h : ∀ seen call, answer seen call = true) (s : Surroundings)
    (seen : List Call) :
    ∀ forest : List Tree, forestCalls answer s seen forest = forestListing s forest
  | [] => rfl
  | t :: rest => by
    simp only [forestCalls, forestListing, Tree.calls_of_accepts h s seen t,
      forestCalls_of_accepts h s _ rest]

end
end Accepted

mutual

/-- The nodes of a tree, each one before those below it. -/
def Tree.nodes : Tree → List Node
  | .node x _ parts => x :: forestNodes parts

/-- The nodes of some trees. -/
def forestNodes : List Tree → List Node
  | [] => []
  | t :: rest => t.nodes ++ forestNodes rest

end

lemma forestNodes_append (a b : List Tree) :
    forestNodes (a ++ b) = forestNodes a ++ forestNodes b := by
  induction a with
  | nil => rfl
  | cons t rest ih => simp only [List.cons_append, forestNodes, ih, List.append_assoc]

mutual

/-- The opening calls of a listing are about the nodes of the tree, in order. -/
lemma Tree.nodes_listing (s : Surroundings) : ∀ t : Tree,
    ((t.listing s).filter (·.phase = .pre)).map (·.node) = t.nodes
  | .node x slot parts => by
    simp [Tree.listing, Tree.nodes, Surroundings.call, forestNodes_listing (s.inside x) parts]

/-- The nodes are called for in order. -/
lemma forestNodes_listing (s : Surroundings) : ∀ forest : List Tree,
    ((forestListing s forest).filter (·.phase = .pre)).map (·.node) = forestNodes forest
  | [] => rfl
  | t :: rest => by
    rw [forestListing, List.filter_append, List.map_append, Tree.nodes_listing s t,
      forestNodes_listing s rest, forestNodes]

end

mutual

/-- A property holds of every call of a listing exactly where it holds of every node of the tree. -/
lemma Tree.forall_listing_iff (P : Node → Prop) (s : Surroundings) : ∀ t : Tree,
    (∀ call ∈ t.listing s, P call.node) ↔ ∀ x ∈ t.nodes, P x
  | .node x slot parts => by
    simp only [Tree.listing, Tree.nodes, List.forall_mem_append, List.forall_mem_cons,
      forall_forestListing_iff P (s.inside x) parts, Surroundings.call]
    exact ⟨fun h => h.1, fun h => ⟨h, h.1, fun _ => nofun⟩⟩

/-- There are only calls for the nodes. -/
lemma forall_forestListing_iff (P : Node → Prop) (s : Surroundings) : ∀ forest : List Tree,
    (∀ call ∈ forestListing s forest, P call.node) ↔ ∀ x ∈ forestNodes forest, P x
  | [] => by simp [forestListing, forestNodes]
  | t :: rest => by
    rw [forestListing, forestNodes, List.forall_mem_append, List.forall_mem_append,
      Tree.forall_listing_iff P s t, forall_forestListing_iff P s rest]

end

/-- The calls for all nodes of a type. -/
def DeclaredType.listing (t : DeclaredType) : List Call := t.tree.listing {}

/-- The surroundings of a type's methods. -/
def DeclaredType.inside (t : DeclaredType) : Surroundings :=
  ({} : Surroundings).inside (.type t)

end DeclIR
