import DeclIR.Text.Lines

/-!
# Occurrences

Where a text first occurs in another, in bytes.
-/

namespace DeclIR.Text

/-- How many bytes into the second text the first one occurs for the first time. -/
def occurrence? (needle : List Char) : List Char → Option Nat
  | [] => if needle.isEmpty then some 0 else none
  | c :: rest =>
    if needle.isPrefixOf (c :: rest) then some 0
    else (occurrence? needle rest).map (c.utf8Size + ·)

/-- A text occurs at once in whatever it begins. -/
theorem occurrence?_append (needle rest : List Char) :
    occurrence? needle (needle ++ rest) = some 0 := by
  cases h : needle ++ rest with
  | nil => simp [occurrence?, (List.append_eq_nil_iff.mp h).1]
  | cons c tail => simp [occurrence?, ← h]

/-- A text that does not begin with any of these characters occurs behind them first. -/
theorem occurrence?_append_of_head_notMem {c : Char} {needle : List Char} {before : List Char}
    (hc : c ∉ before) (rest : List Char) :
    occurrence? (c :: needle) (before ++ (c :: needle ++ rest)) = some (byteLength before) := by
  induction before with
  | nil => exact occurrence?_append (c :: needle) rest
  | cons d before ih =>
    obtain ⟨hd, hc⟩ := not_or.mp (mt List.mem_cons.mpr hc)
    rw [List.cons_append, occurrence?, ih hc]
    simp [hd, byteLength]

end DeclIR.Text
