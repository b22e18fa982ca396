import DeclIR.Declaration.DeclaredType
import DeclIR.Traversal.Visit

/-!
# Visitors

A visitor has two hooks for each kind of node.  The first is called before the node's parts are
visited and says whether they are to be visited at all; the second is called afterwards in either
case.  A hook can change the node it is called with.

Every hook that is not given falls back to `visitNode` or `endVisitNode`, and these accept every
node.  A visitor for some kinds of nodes gives a `visitNode` that refuses, so that a node it has no
rule for is not passed over.
-/

namespace DeclIR

/-- The variable that a declaration anchor stands for. -/
inductive Declared where
  | field (f : Field)
  | localVar (v : Variable)

namespace Declared

/-- What fields and local variables have in common. -/
def base : Declared → Variable
  | field f => f.toVariable
  | localVar v => v

/-- The field, if it is one. -/
def field? : Declared → Option Field
  | field f => some f
  | localVar _ => none

/-- Attaches a declaration statement in place of any before. -/
def declare (d : Declaration) : Declared → Declared
  | field f => field (f.declare d)
  | localVar v => localVar (v.declare d)

/-- Makes the variable final, unless it is a volatile field. -/
def setFinal : Declared → Except Fault Declared
  | field f => field <$> f.setFinal
  | localVar v => .ok (localVar v.setFinal)

end Declared

/-- Calls a hook that only looks at a node's kind and provenance. -/
def Visit.offer {σ ν α : Type} (hook : NodeKind → Provenance → Visit σ Unit α)
    (kind : ν → NodeKind) (info : ν → Provenance) : Visit σ ν α := do
  let n ← node
  part () (fun _ => n) (hook (kind n) (info n))

open Visit in
/-- The hooks of a visitor with own state `σ`. -/
structure Visitor (σ : Type) where
  /-- How many levels deeper an expression or a body may become while it is visited.  What lies
  deeper still is not visited, which keeps every traversal finite. -/
  reach : Nat := 0
  visitNode : NodeKind → Provenance → Visit σ Unit Bool := fun _ _ => pure true
  endVisitNode : NodeKind → Provenance → Visit σ Unit Unit := fun _ _ => pure ()
  visitType : Visit σ DeclaredType Bool := offer visitNode (fun _ => .declaredType) (·.info)
  endVisitType : Visit σ DeclaredType Unit := offer endVisitNode (fun _ => .declaredType) (·.info)
  visitField : Visit σ Field Bool := offer visitNode (fun _ => .field) (·.info)
  endVisitField : Visit σ Field Unit := offer endVisitNode (fun _ => .field) (·.info)
  visitMethod : Visit σ Method Bool := offer visitNode (fun _ => .method) (·.info)
  endVisitMethod : Visit σ Method Unit := offer endVisitNode (fun _ => .method) (·.info)
  visitParameter : Visit σ Variable Bool := offer visitNode (fun _ => .parameter) (·.info)
  endVisitParameter : Visit σ Variable Unit := offer endVisitNode (fun _ => .parameter) (·.info)
  visitTag : Tag → Visit σ Unit Bool := fun t => visitNode .tag t.info
  endVisitTag : Tag → Visit σ Unit Unit := fun t => endVisitNode .tag t.info
  /-- Given a list of annotations, the list to keep in its place.  Where this is not given, each
  annotation is visited and the list is kept. -/
  keepTags : Option (List Tag → Visit σ Unit (List Tag)) := none
  visitBlock : Visit σ Block Bool := offer visitNode (fun _ => .block) (·.info)
  endVisitBlock : Visit σ Block Unit := offer endVisitNode (fun _ => .block) (·.info)
  /-- Called with the slot and the provenance of the anchor. -/
  visitDeclaration : VarSlot → Provenance → Visit σ Declared Bool :=
    fun _ info => offer visitNode (fun _ => .declaration) (fun _ => info)
  endVisitDeclaration : VarSlot → Provenance → Visit σ Declared Unit :=
    fun _ info => offer endVisitNode (fun _ => .declaration) (fun _ => info)
  /-- Called for statements other than anchors and nested blocks. -/
  visitStmt : Visit σ Stmt Bool := offer visitNode Stmt.kind Stmt.info
  endVisitStmt : Visit σ Stmt Unit := offer endVisitNode Stmt.kind Stmt.info
  visitExpr : Visit σ Expr Bool := offer visitNode Expr.kind Expr.info
  endVisitExpr : Visit σ Expr Unit := offer endVisitNode Expr.kind Expr.info

end DeclIR
