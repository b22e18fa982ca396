import DeclIR.Code.Stmt

/-!
# Kinds of nodes and of places

The kinds of nodes that a traversal offers to a visitor, and the kinds of places a node can be in.
A place decides which edits the node allows.
-/

namespace DeclIR

/-- The kinds of nodes. -/
inductive NodeKind where
  | declaredType
  | field
  | method
  | parameter
  | tag
  | block
  | declaration
  | exprStmt
  | ret
  | branch
  | literal
  | fieldRef
  | localRef
  | parameterRef
  | self
  | binary
deriving DecidableEq, Repr

namespace NodeKind

/-- All kinds, outermost declarations first. -/
def all : List NodeKind :=
  [declaredType, field, method, parameter, tag, block, declaration, exprStmt, ret, branch, literal,
   fieldRef, localRef, parameterRef, self, binary]

/-- The name of a kind in messages. -/
def text : NodeKind → String
  | declaredType => "declared type"
  | field => "field"
  | method => "method"
  | parameter => "parameter"
  | tag => "annotation"
  | block => "block"
  | declaration => "declaration"
  | exprStmt => "expression statement"
  | ret => "return"
  | branch => "if"
  | literal => "literal"
  | fieldRef => "field reference"
  | localRef => "local reference"
  | parameterRef => "parameter reference"
  | self => "this"
  | binary => "binary expression"

end NodeKind

/-- The kind of a statement's node. -/
def Stmt.kind : Stmt → NodeKind
  | declare .. => .declaration
  | eval .. => .exprStmt
  | ret .. => .ret
  | branch .. => .branch
  | block _ => .block

/-- The kind of an expression's outermost node. -/
def Expr.kind : Expr → NodeKind
  | literal .. => .literal
  | staticField .. => .fieldRef
  | instanceField .. => .fieldRef
  | localVar .. => .localRef
  | parameter .. => .parameterRef
  | self .. => .self
  | binary .. => .binary

/-- The kinds of places. -/
inductive Slot where
  /-- An element of a block's statements, which can be removed, replaced and added to. -/
  | statement
  /-- An operand, a condition, a value or an initializer, which can be replaced. -/
  | expression
  /-- Any other place; the node there stays. -/
  | fixed
deriving DecidableEq, Repr

/-- All kinds of places. -/
def Slot.all : List Slot := [.statement, .expression, .fixed]

/-- The name of a place in messages. -/
def Slot.text : Slot → String
  | .statement => "statement"
  | .expression => "expression"
  | .fixed => "fixed"

end DeclIR
