import DeclIR.Code.Expr

/-!
# Statements and blocks

A variable's declaration statement belongs to the variable; the block where it is executed only
holds an anchor, the statement `declare`, that says when.
-/

namespace DeclIR

/-- A sequence of statements of type `α`. -/
structure BlockOf (α : Type) where
  info : Provenance
  stmts : List α

/-- A statement of a method body. -/
inductive Stmt where
  /-- The place where the declaration statement of a variable is executed. -/
  | declare (info : Provenance) (slot : VarSlot)
  | eval (info : Provenance) (expr : Expr)
  | ret (info : Provenance) (value : Option Expr)
  | branch (info : Provenance) (cond : Expr) (onTrue : BlockOf Stmt)
    (onFalse : Option (BlockOf Stmt))
  | block (body : BlockOf Stmt)

/-- A sequence of statements. -/
abbrev Block := BlockOf Stmt

namespace Stmt

/-- The provenance of a statement; that of a nested block is the block's. -/
def info : Stmt → Provenance
  | declare i _ => i
  | eval i _ => i
  | ret i _ => i
  | branch i _ _ _ => i
  | block b => b.info

end Stmt

/-! ## Nesting -/

mutual

/-- The number of statements on the longest path from a statement inwards. -/
def Stmt.nesting : Stmt → Nat
  | .branch _ _ t e => max (Block.nesting t) (elseNesting e) + 1
  | .block b => Block.nesting b + 1
  | _ => 1

/-- The greatest nesting of a block's statements. -/
def Block.nesting : BlockOf Stmt → Nat
  | ⟨_, stmts⟩ => stmtsNesting stmts

/-- The nesting of an alternative that may be absent. -/
def elseNesting : Option (BlockOf Stmt) → Nat
  | none => 0
  | some b => Block.nesting b

/-- The greatest nesting of some statements. -/
def stmtsNesting : List Stmt → Nat
  | [] => 0
  | s :: rest => max s.nesting (stmtsNesting rest)

end

end DeclIR
