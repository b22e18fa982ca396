/-!
# Source spans

A span is a range of offsets in one numbered file.  Two spans of one file have a least common
cover (`cover?`); spans of different files have none.
-/

namespace DeclIR

/-- The offsets from `start` up to, but not including, `stop` in file number `file`. -/
structure Span where
  file : Nat
  start : Nat
  stop : Nat
deriving DecidableEq, Repr, Inhabited

namespace Span

/-- The span of nodes that no source text stands behind. -/
def dummy : Span := ⟨0, 0, 0⟩

/-- An offset as a span keeps it, in 32 bits: one that is too large wraps around. -/
def offset32 (n : Nat) : Nat := n % UInt32.size

/-- The least span over both, which exists only within one file. -/
def cover? (a b : Span) : Option Span :=
  if a.file = b.file then some ⟨a.file, min a.start b.start, max a.stop b.stop⟩ else none

/-- A span is written `file:start..stop`. -/
def text (s : Span) : String :=
  toString s.file ++ ":" ++ toString s.start ++ ".." ++ toString s.stop

end Span
end DeclIR
