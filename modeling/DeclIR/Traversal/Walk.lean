import DeclIR.Program
import DeclIR.Traversal.Visitor

/-!
# Walking a program

The order in which a visitor's hooks are called:

* a type is followed by its annotations, its fields and its methods;
* a field is followed by its annotations only;
* a method is followed by its annotations, its parameters and its body;
* an anchor is followed by the initializer of the variable it stands for, so that initializers are
  visited where they are executed and not where their variables are listed;
* a statement or expression is followed by what it contains, in the order it is written.

The edits requested for a statement are applied when it is left.  Statements that come in by an edit
are not visited.
-/

namespace DeclIR

open Visit

/-! ## Variables in reach of a body -/

/-- The variables that the anchors of a method's body can stand for. -/
structure Scope where
  owner : TypeId
  fields : List Field
  locals : List Variable

namespace Scope

/-- The variable in a slot, if it is a field of the owner or a local variable of the method. -/
def resolve? (s : Scope) : VarSlot → Option Declared
  | .field id => if id.owner = s.owner then s.fields[id.index]?.map .field else none
  | .localVar i => s.locals[i]?.map .localVar

/-- Puts a variable into a slot of its kind. -/
def store (s : Scope) (slot : VarSlot) (d : Declared) : Scope :=
  match slot, d with
  | .field id, .field f => { s with fields := s.fields.set id.index f }
  | .localVar i, .localVar v => { s with locals := s.locals.set i v }
  | _, _ => s

end Scope

namespace Visitor

variable {σ : Type} (v : Visitor σ)

/-! ## Expressions -/

/-- Visits the direct parts of an expression. -/
def inOperands (w : Visit σ Expr Unit) : Visit σ Expr Unit := do
  match ← node with
  | .instanceField info f receiver => part receiver (.instanceField info f ·) w
  | .binary info op lhs rhs =>
    let lhs ← part lhs (.binary info op · rhs) do
      w
      node
    part rhs (.binary info op lhs ·) w
  | _ => pure ()

/-- Visits an expression down to the level given. -/
def walkExprWithin : Nat → Visit σ Expr Unit
  | 0 => pure ()
  | n + 1 => do
    let frame? ← inFrame (← node).kind .expression <|
      around v.visitExpr (inOperands (walkExprWithin n)) v.endVisitExpr
    if let some frame := frame? then
      setNode (frame.result (← node))

/-- Visits an expression. -/
def walkExpr : Visit σ Expr Unit := do
  v.walkExprWithin ((← node).depth + v.reach)

/-! ## Declarations, statements and blocks -/

/-- Visits the initializer of a declared variable. -/
def walkInitializer : Visit σ Declared Unit := do
  let target ← node
  if let some d := target.base.declaration then
    part d.initializer (fun e => target.declare { d with initializer := e }) v.walkExpr

/-- Visits the variable in a slot on behalf of an anchor. -/
def walkDeclaration (info : Provenance) (slot : VarSlot) : Visit (σ × Scope) Stmt Unit := do
  match (← get).own.2.resolve? slot with
  | none => throw (.danglingSlot slot info)
  | some target =>
    zoom (fun s => ⟨target, s.context, s.own.1⟩)
      (fun t s => ⟨s.node, t.context, (t.own, s.own.2.store slot t.node)⟩)
      (around (v.visitDeclaration slot info) v.walkInitializer (v.endVisitDeclaration slot info))

/-- Visits the statements of a list and applies the edits requested for each. -/
def eachStmt (w : Visit (σ × Scope) Stmt Unit) : Visit (σ × Scope) (List Stmt) Unit :=
  eachSegment do
    match ← inFrame (← node).kind .statement w with
    | some frame => return frame.segment (← node)
    | none => return [← node]

/-- Visits the statements of a block. -/
def inBlock (w : Visit (σ × Scope) Stmt Unit) : Visit (σ × Scope) Block Unit := do
  let b ← node
  part b.stmts (fun stmts => { b with stmts }) (eachStmt w)

/-- Visits a block whose frame is already entered. -/
def walkBlockBy (w : Visit (σ × Scope) Stmt Unit) : Visit (σ × Scope) Block Unit :=
  around (beside v.visitBlock) (inBlock w) (beside v.endVisitBlock)

/-- Visits a block that is not itself an element of a block. -/
def walkFixedBlockBy (w : Visit (σ × Scope) Stmt Unit) : Visit (σ × Scope) Block Unit := do
  let _ ← inFrame .block .fixed (v.walkBlockBy w)

/-- Visits the parts of a statement. -/
def inStmt (w : Visit (σ × Scope) Stmt Unit) : Visit (σ × Scope) Stmt Unit := do
  match ← node with
  | .eval info e => part e (.eval info) (beside v.walkExpr)
  | .ret info (some e) => part e (fun e => .ret info (some e)) (beside v.walkExpr)
  | .branch info cond onTrue onFalse =>
    let cond ← part cond (.branch info · onTrue onFalse) do
      beside v.walkExpr
      node
    let onTrue ← part onTrue (.branch info cond · onFalse) do
      v.walkFixedBlockBy w
      node
    if let some block := onFalse then
      part block (fun b => .branch info cond onTrue (some b)) (v.walkFixedBlockBy w)
  | _ => pure ()

/-- Visits a statement down to the level given. -/
def walkStmtWithin : Nat → Visit (σ × Scope) Stmt Unit
  | 0 => pure ()
  | n + 1 => do
    match ← node with
    | .declare info slot => v.walkDeclaration info slot
    | .block b => part b .block (v.walkBlockBy (walkStmtWithin n))
    | _ => around (beside v.visitStmt) (v.inStmt (walkStmtWithin n)) (beside v.endVisitStmt)

/-- Visits the body of a method. -/
def walkBody : Visit (σ × Scope) Block Unit := do
  v.walkFixedBlockBy (v.walkStmtWithin (Block.nesting (← node) + v.reach))

/-! ## Declarations -/

/-- Visits an annotation. -/
def walkTag (t : Tag) : Visit σ Unit Unit := do
  let _ ← inFrame .tag .fixed (around (v.visitTag t) (pure ()) (v.endVisitTag t))

/-- The annotations to keep in place of those given. -/
def walkTags (tags : List Tag) : Visit σ Unit (List Tag) :=
  match v.keepTags with
  | some keep => keep tags
  | none => do
    tags.forM v.walkTag
    return tags

/-- Exchanges the annotations of a node. -/
def inTags {ν : Type} (get : ν → List Tag) (put : ν → List Tag → ν) : Visit σ ν Unit := do
  let n ← node
  let tags ← part () (fun _ => n) (v.walkTags (get n))
  setNode (put n tags)

/-- Visits a field.  Its initializer is visited at its anchor. -/
def walkField : Visit σ Field Unit := do
  let _ ← inFrame .field .fixed <|
    around v.visitField (v.inTags (·.tags) fun f tags => { f with tags }) v.endVisitField

/-- Visits a parameter. -/
def walkParameter : Visit σ Variable Unit := do
  let _ ← inFrame .parameter .fixed (around v.visitParameter (pure ()) v.endVisitParameter)

/-- Visits the parameters of a method. -/
def inParameters : Visit σ Method Unit := do
  let m ← node
  part m.parameters (fun parameters => { m with parameters }) (each v.walkParameter)

/-- Visits the body of a method, whose anchors stand for its local variables and for the fields of
the type around it. -/
def inBody : Visit (σ × List Field) Method Unit := do
  let m ← node
  if let some body := m.body then
    zoom (fun s => ⟨body, s.context, (s.own.1, ⟨m.owner, s.own.2, m.locals⟩)⟩)
      (fun t _ => ⟨{ m with body := some t.node, locals := t.own.2.locals }, t.context,
        (t.own.1, t.own.2.fields)⟩)
      v.walkBody

/-- Visits the parts of a method, with the fields of the type around it. -/
def inMethod : Visit (σ × List Field) Method Unit := do
  beside (v.inTags (·.tags) fun m tags => { m with tags })
  beside v.inParameters
  v.inBody

/-- Visits a method, with the fields of the type around it. -/
def walkMethod : Visit (σ × List Field) Method Unit := do
  let _ ← inFrame .method .fixed <|
    around (beside v.visitMethod) v.inMethod (beside v.endVisitMethod)

/-- Visits the fields of a type. -/
def inFields : Visit σ DeclaredType Unit := do
  let t ← node
  part t.fields (fun fields => { t with fields }) (each v.walkField)

/-- Visits the methods of a type, whose anchors stand for the type's fields. -/
def inMethods : Visit σ DeclaredType Unit := do
  let t ← node
  zoom (fun s => ⟨t.methods, s.context, (s.own, t.fields)⟩)
    (fun r _ => ⟨{ t with methods := r.node, fields := r.own.2 }, r.context, r.own.1⟩)
    (each v.walkMethod)

/-- Visits the parts of a type. -/
def inType : Visit σ DeclaredType Unit := do
  v.inTags (·.tags) fun t tags => { t with tags }
  v.inFields
  v.inMethods

/-- Runs a visit with another enclosing type, and gives the one before back if it does not fail. -/
def enclosedBy {ν : Type} (id : TypeId) (w : Visit σ ν Unit) : Visit σ ν Unit := do
  let outer := (← context).enclosingType
  mapContext fun c => { c with enclosingType := some id }
  w
  mapContext fun c => { c with enclosingType := outer }

/-- Visits a declared type. -/
def walkType : Visit σ DeclaredType Unit := do
  let _ ← inFrame .declaredType .fixed <|
    enclosedBy (← node).id (around v.visitType v.inType v.endVisitType)

/-- Visits the declared types of a program by position. -/
def walkProgram : Visit σ Program Unit := do
  part (← node).types (fun types => ⟨types⟩) (each v.walkType)

end Visitor

/-- Visits a program in a context of its own. -/
def Program.traverse {σ : Type} (p : Program) (v : Visitor σ) (own : σ) :
    EStateM.Result Fault (Site σ Program) Unit :=
  v.walkProgram ⟨p, {}, own⟩

end DeclIR
