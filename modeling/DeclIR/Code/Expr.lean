import DeclIR.Literal
import DeclIR.Source.Provenance

/-!
# Expressions

Expressions refer to variables by handle.  A field is read either through its type or through the
object that a receiver evaluates to.
-/

namespace DeclIR

/-- The operators between two expressions. -/
inductive BinaryOp where
  | assign
  | add
  | sub
  | mul
  | eq
  | lt
deriving DecidableEq, Repr

/-- All operators. -/
def BinaryOp.all : List BinaryOp := [.assign, .add, .sub, .mul, .eq, .lt]

/-- The spelling of an operator. -/
def BinaryOp.text : BinaryOp → String
  | .assign => "="
  | .add => "+"
  | .sub => "-"
  | .mul => "*"
  | .eq => "=="
  | .lt => "<"

/-- An expression; every node carries its provenance. -/
inductive Expr where
  | literal (info : Provenance) (value : Literal)
  | staticField (info : Provenance) (field : FieldId)
  | instanceField (info : Provenance) (field : FieldId) (receiver : Expr)
  | localVar (info : Provenance) (index : Nat)
  | parameter (info : Provenance) (index : Nat)
  /-- The object that a method of type `type` is called on. -/
  | self (info : Provenance) (type : TypeId)
  | binary (info : Provenance) (op : BinaryOp) (lhs rhs : Expr)
deriving DecidableEq, Repr

namespace Expr

/-- The provenance of the outermost node. -/
def info : Expr → Provenance
  | literal i _ => i
  | staticField i _ => i
  | instanceField i _ _ => i
  | localVar i _ => i
  | parameter i _ => i
  | self i _ => i
  | binary i _ _ _ => i

/-- The value of an expression that is a literal. -/
def literal? : Expr → Option Literal
  | literal _ v => some v
  | _ => none

/-- The number of nodes on the longest path from the outermost node inwards. -/
def depth : Expr → Nat
  | instanceField _ _ r => r.depth + 1
  | binary _ _ l r => max l.depth r.depth + 1
  | _ => 1

theorem depth_pos (e : Expr) : 0 < e.depth := by
  cases e <;> simp [depth]

end Expr
end DeclIR
