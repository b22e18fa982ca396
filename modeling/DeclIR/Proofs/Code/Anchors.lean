import DeclIR.Declaration.Method
import Mathlib.Tactic.Lemma

/-!
# Anchors and nesting

The anchors of a statement are those at any depth below it, in the order they are executed.  A
statement of a block is nested less deeply than the block's statement, which is what the walks of
bodies recurse on.
-/

namespace DeclIR

/-- The place of an anchor and the variable it stands for. -/
structure Anchor where
  info : Provenance
  slot : VarSlot
deriving DecidableEq, Repr

mutual

/-- The anchors of a statement. -/
def Stmt.anchors : Stmt → List Anchor
  | .declare info slot => [⟨info, slot⟩]
  | .branch _ _ t e => Block.anchors t ++ elseAnchors e
  | .block b => Block.anchors b
  | _ => []

/-- The anchors of a block. -/
def Block.anchors : BlockOf Stmt → List Anchor
  | ⟨_, stmts⟩ => stmtsAnchors stmts

/-- The anchors of an alternative that may be absent. -/
def elseAnchors : Option (BlockOf Stmt) → List Anchor
  | none => []
  | some b => Block.anchors b

/-- The anchors of some statements. -/
def stmtsAnchors : List Stmt → List Anchor
  | [] => []
  | s :: rest => s.anchors ++ stmtsAnchors rest

end

/-- The anchors of a method's body, if it has one. -/
def Method.anchors (m : Method) : List Anchor :=
  match m.body with
  | some b => Block.anchors b
  | none => []

/-- The anchors of a method with a body are those of the body. -/
lemma Method.anchors_of_body {m : Method} {b : Block} (h : m.body = some b) :
    m.anchors = stmtsAnchors b.stmts := by
  obtain ⟨info, stmts⟩ := b
  rw [Method.anchors, h]
  simp only [Block.anchors]

lemma stmtsAnchors_append (a b : List Stmt) :
    stmtsAnchors (a ++ b) = stmtsAnchors a ++ stmtsAnchors b := by
  induction a with
  | nil => rfl
  | cons s rest ih => simp only [List.cons_append, stmtsAnchors, ih, List.append_assoc]

/-- A statement is nested no deeper than the list that it stands in. -/
lemma nesting_le_stmtsNesting {s : Stmt} {stmts : List Stmt} (h : s ∈ stmts) :
    s.nesting ≤ stmtsNesting stmts := by
  induction stmts with
  | nil => cases h
  | cons t rest ih =>
    rw [stmtsNesting]
    rcases List.mem_cons.mp h with rfl | h
    · omega
    · have := ih h
      omega

/-- A statement is nested no deeper than a block it stands in. -/
lemma nesting_le_of_mem {s : Stmt} {b : Block} (h : s ∈ b.stmts) : s.nesting ≤ Block.nesting b := by
  obtain ⟨info, stmts⟩ := b
  exact nesting_le_stmtsNesting h

end DeclIR
