import DeclIR.Traversal.Walk

/-!
# Observers

An observer is called at each node like a visitor, but changes neither the node nor the context: it
can only change its own state, leave out the parts of a node, and fail.  `Visitor.Observes` says
that a visitor is one.

What an observer sees is defined here by recursion on the code, without frames and edits
(`Observer.type`, `Observer.program`).  That a walk does just this is the subject of
`DeclIR.Proofs.Traversal.Observation`.
-/

namespace DeclIR

open Visit

/-- A node as a hook is called with it. -/
inductive Node where
  | type (t : DeclaredType)
  | field (f : Field)
  | method (m : Method)
  | parameter (v : Variable)
  | tag (t : Tag)
  | block (b : Block)
  /-- An anchor, with the variable it stands for. -/
  | declaration (slot : VarSlot) (info : Provenance) (d : Declared)
  | stmt (s : Stmt)
  | expr (e : Expr)

/-- What is done before and after the parts of each node. -/
structure Observer (σ : Type) where
  /-- Says whether the parts of the node are to be visited. -/
  pre : Node → Context → EStateM Fault σ Bool
  post : Node → Context → EStateM Fault σ Unit

/-- Does to the own state what depends on the node and the context. -/
def Visit.look {σ ν α : Type} (f : ν → Context → EStateM Fault σ α) : Visit σ ν α := fun s =>
  match f s.node s.context s.own with
  | .ok a own => .ok a { s with own }
  | .error e own => .error e { s with own }

/-- The hooks of a visitor are those of an observer. -/
structure Visitor.Observes {σ : Type} (v : Visitor σ) (o : Observer σ) : Prop where
  keepTags : v.keepTags = none
  visitType : v.visitType = look fun t => o.pre (.type t)
  endVisitType : v.endVisitType = look fun t => o.post (.type t)
  visitField : v.visitField = look fun f => o.pre (.field f)
  endVisitField : v.endVisitField = look fun f => o.post (.field f)
  visitMethod : v.visitMethod = look fun m => o.pre (.method m)
  endVisitMethod : v.endVisitMethod = look fun m => o.post (.method m)
  visitParameter : v.visitParameter = look fun p => o.pre (.parameter p)
  endVisitParameter : v.endVisitParameter = look fun p => o.post (.parameter p)
  visitTag : ∀ t, v.visitTag t = look fun _ => o.pre (.tag t)
  endVisitTag : ∀ t, v.endVisitTag t = look fun _ => o.post (.tag t)
  visitBlock : v.visitBlock = look fun b => o.pre (.block b)
  endVisitBlock : v.endVisitBlock = look fun b => o.post (.block b)
  visitDeclaration : ∀ slot info,
    v.visitDeclaration slot info = look fun d => o.pre (.declaration slot info d)
  endVisitDeclaration : ∀ slot info,
    v.endVisitDeclaration slot info = look fun d => o.post (.declaration slot info d)
  visitStmt : v.visitStmt = look fun s => o.pre (.stmt s)
  endVisitStmt : v.endVisitStmt = look fun s => o.post (.stmt s)
  visitExpr : v.visitExpr = look fun e => o.pre (.expr e)
  endVisitExpr : v.endVisitExpr = look fun e => o.post (.expr e)

namespace Observer

variable {σ : Type} (o : Observer σ)

/-- Observes a node: its parts if they are to be visited, and its end in either case. -/
def node (x : Node) (c : Context) (parts : EStateM Fault σ Unit) : EStateM Fault σ Unit := do
  if ← o.pre x c then
    parts
  o.post x c

/-- Observes an expression that is entered from the context `c`. -/
def expr (c : Context) : Expr → EStateM Fault σ Unit
  | .instanceField i f r =>
    let e := Expr.instanceField i f r
    o.node (.expr e) (c.enter e.kind .expression) (expr (c.enter e.kind .expression) r)
  | .binary i op l r =>
    let e := Expr.binary i op l r
    o.node (.expr e) (c.enter e.kind .expression) do
      expr (c.enter e.kind .expression) l
      expr (c.enter e.kind .expression) r
  | e => o.node (.expr e) (c.enter e.kind .expression) (pure ())

/-- Observes the initializer of a variable, if there is one. -/
def initializer (c : Context) (d : Declared) : EStateM Fault σ Unit :=
  match d.base.declaration with
  | some x => o.expr c x.initializer
  | none => pure ()

/-- Observes an anchor and the initializer of the variable that it stands for. -/
def anchor (scope : Scope) (c : Context) (info : Provenance) (slot : VarSlot) :
    EStateM Fault σ Unit :=
  match scope.resolve? slot with
  | none => throw (.danglingSlot slot info)
  | some d => o.node (.declaration slot info d) c (o.initializer c d)

mutual

/-- Observes a statement that is already entered. -/
def stmt (scope : Scope) (c : Context) : Stmt → EStateM Fault σ Unit
  | .declare info slot => o.anchor scope c info slot
  | .block b => block scope c b
  | .eval i e => o.node (.stmt (.eval i e)) c (o.expr c e)
  | .ret i (some e) => o.node (.stmt (.ret i (some e))) c (o.expr c e)
  | .ret i none => o.node (.stmt (.ret i none)) c (pure ())
  | .branch i cond onTrue onFalse =>
    o.node (.stmt (.branch i cond onTrue onFalse)) c do
      o.expr c cond
      block scope (c.enter .block .fixed) onTrue
      alternative scope c onFalse

/-- Observes a block that is already entered. -/
def block (scope : Scope) (c : Context) : BlockOf Stmt → EStateM Fault σ Unit
  | ⟨info, list⟩ => o.node (.block ⟨info, list⟩) c (stmts scope c list)

/-- Observes an alternative, if there is one. -/
def alternative (scope : Scope) (c : Context) : Option (BlockOf Stmt) → EStateM Fault σ Unit
  | none => pure ()
  | some b => block scope (c.enter .block .fixed) b

/-- Observes statements in order. -/
def stmts (scope : Scope) (c : Context) : List Stmt → EStateM Fault σ Unit
  | [] => pure ()
  | s :: rest => do
    stmt scope (c.enter s.kind .statement) s
    stmts scope c rest

end

/-- Observes the annotations of a node. -/
def tags (c : Context) (list : List Tag) : EStateM Fault σ Unit :=
  list.forM fun t => o.node (.tag t) (c.enter .tag .fixed) (pure ())

/-- Observes a field without its initializer. -/
def field (c : Context) (f : Field) : EStateM Fault σ Unit :=
  o.node (.field f) (c.enter .field .fixed) (o.tags (c.enter .field .fixed) f.tags)

/-- Observes a parameter. -/
def parameter (c : Context) (v : Variable) : EStateM Fault σ Unit :=
  o.node (.parameter v) (c.enter .parameter .fixed) (pure ())

/-- Observes the body of a method, if there is one, in a type that has these fields. -/
def body (fields : List Field) (c : Context) (m : Method) : EStateM Fault σ Unit :=
  match m.body with
  | some b => o.block ⟨m.owner, fields, m.locals⟩ (c.enter .block .fixed) b
  | none => pure ()

/-- Observes a method of a type that has these fields. -/
def method (fields : List Field) (c : Context) (m : Method) : EStateM Fault σ Unit :=
  o.node (.method m) (c.enter .method .fixed) do
    o.tags (c.enter .method .fixed) m.tags
    m.parameters.forM (o.parameter (c.enter .method .fixed))
    o.body fields (c.enter .method .fixed) m

/-- The context that the hooks of a type and of its direct parts see. -/
def insideType (c : Context) (t : DeclaredType) : Context :=
  { c.enter .declaredType .fixed with enclosingType := some t.id }

/-- Observes a declared type. -/
def type (c : Context) (t : DeclaredType) : EStateM Fault σ Unit :=
  o.node (.type t) (insideType c t) do
    o.tags (insideType c t) t.tags
    t.fields.forM (o.field (insideType c t))
    t.methods.forM (o.method t.fields (insideType c t))

/-- Observes a program in a context of its own. -/
def program (p : Program) : EStateM Fault σ Unit := p.types.forM (o.type {})

end Observer
end DeclIR
