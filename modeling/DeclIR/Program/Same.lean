import DeclIR.Program

/-!
# Sameness of programs

Two programs are the same when they have the same parts in the same order, where floating-point
literals are compared as numbers.  A program with a literal that is no number is not even the same
as itself.
-/

namespace DeclIR

/-- Whether two optional things are both absent, or both there and related. -/
def sameOption {α : Type} (same : α → α → Bool) : Option α → Option α → Bool
  | none, none => true
  | some a, some b => same a b
  | _, _ => false

/-- Sameness of expressions. -/
def Expr.same : Expr → Expr → Bool
  | literal i v, literal j w => i = j && v.same w
  | instanceField i f r, instanceField j g s => i = j && f = g && r.same s
  | binary i o l r, binary j p m s => i = j && o = p && l.same m && r.same s
  | a, b => a = b

/-- Sameness of declaration statements. -/
def Declaration.same (a b : Declaration) : Bool :=
  a.info = b.info && a.initializer.same b.initializer

/-- Sameness of variables. -/
def Variable.same (a b : Variable) : Bool :=
  a.info = b.info && a.name = b.name && a.type = b.type && a.isFinal = b.isFinal &&
    sameOption Declaration.same a.declaration b.declaration

/-- Sameness of fields. -/
def Field.same (a b : Field) : Bool :=
  a.toVariable.same b.toVariable && a.owner = b.owner && a.isStatic = b.isStatic &&
    a.isConstant = b.isConstant && a.isCapture = b.isCapture && a.isVolatile = b.isVolatile &&
    a.tags = b.tags

mutual

/-- Sameness of statements. -/
def Stmt.same : Stmt → Stmt → Bool
  | .declare i s, .declare j t => i = j && s = t
  | .eval i e, .eval j f => i = j && e.same f
  | .ret i v, .ret j w => i = j && sameOption Expr.same v w
  | .branch i c t e, .branch j d u f =>
    i = j && c.same d && Block.same t u && sameAlternative e f
  | .block a, .block b => Block.same a b
  | _, _ => false

/-- Sameness of blocks. -/
def Block.same : BlockOf Stmt → BlockOf Stmt → Bool
  | ⟨i, s⟩, ⟨j, t⟩ => i = j && sameStmts s t

/-- Sameness of alternatives that may be absent. -/
def sameAlternative : Option (BlockOf Stmt) → Option (BlockOf Stmt) → Bool
  | none, none => true
  | some a, some b => Block.same a b
  | _, _ => false

/-- Sameness of lists of statements. -/
def sameStmts : List Stmt → List Stmt → Bool
  | [], [] => true
  | a :: s, b :: t => a.same b && sameStmts s t
  | _, _ => false

end

/-- Sameness of methods. -/
def Method.same (a b : Method) : Bool :=
  a.info = b.info && a.name = b.name && a.owner = b.owner && a.isStatic = b.isStatic &&
    a.returnType = b.returnType && a.parameters.isEqv b.parameters Variable.same &&
    a.locals.isEqv b.locals Variable.same && sameOption Block.same a.body b.body && a.tags = b.tags

/-- Sameness of declared types. -/
def DeclaredType.same (a b : DeclaredType) : Bool :=
  a.info = b.info && a.id = b.id && a.name = b.name && a.kind = b.kind &&
    a.enclosing = b.enclosing && a.fields.isEqv b.fields Field.same &&
    a.methods.isEqv b.methods Method.same && a.tags = b.tags

/-- Sameness of programs. -/
def Program.same (a b : Program) : Bool := a.types.isEqv b.types DeclaredType.same

end DeclIR
