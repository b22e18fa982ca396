import DeclIR.Text.Blank
import Mathlib.Data.List.DropRight
import Mathlib.Tactic.Lemma

/-!
# Trimming

What trimming takes away and what it leaves.  A text is what is taken from its start, the trimmed
text and what is taken from its end (`exists_eq_append_trim`), a trimmed text begins with a
character that is not to be taken (`head?_trim_not`), and all such characters are in it
(`mem_trim`).  Appending what is to be taken changes nothing (`trim_append_of_forall`); appending
anything else leaves the start as it is (`trim_append`).
-/

namespace DeclIR.Text

variable {p : Char → Bool} {c : Char} {cs ds : List Char}

/-- Dropping stops at a character that is not dropped. -/
lemma mem_dropWhile (hc : c ∈ cs) (hp : p c = false) : c ∈ cs.dropWhile p := by
  rw [← List.takeWhile_append_dropWhile (p := p) (l := cs), List.mem_append] at hc
  refine hc.resolve_left fun h => ?_
  rw [List.mem_takeWhile_imp h] at hp
  cases hp

/-- Trimming keeps all characters that are not trimmed. -/
lemma mem_trim (hc : c ∈ cs) (hp : p c = false) : c ∈ trim p cs :=
  List.mem_reverse.mpr (mem_dropWhile (List.mem_reverse.mpr (mem_dropWhile hc hp)) hp)

/-- Nothing is left by trimming just when all characters are trimmed. -/
lemma trim_eq_nil_iff : trim p cs = [] ↔ ∀ c ∈ cs, p c := by
  constructor
  · intro h c hc
    by_contra hp
    have hmem := mem_trim hc (eq_false_of_ne_true hp)
    rw [h] at hmem
    cases hmem
  · intro h
    rw [trim, trimStart, List.dropWhile_eq_nil_iff.mpr h]
    rfl

/-- Trimming takes away a beginning and an end. -/
lemma exists_eq_append_trim (p : Char → Bool) (cs : List Char) :
    ∃ after, cs = cs.takeWhile p ++ (trim p cs ++ after) := by
  obtain ⟨after, hafter⟩ := List.rdropWhile_prefix p (l := cs.dropWhile p)
  refine ⟨after, ?_⟩
  have hend : trim p cs ++ after = cs.dropWhile p := hafter
  rw [hend, List.takeWhile_append_dropWhile]

/-! ## Texts that are put together -/

lemma trimEnd_eq_nil_iff : trimEnd p cs = [] ↔ ∀ c ∈ cs, p c := List.rdropWhile_eq_nil_iff

lemma trimEnd_append_of_forall (hds : ∀ d ∈ ds, p d) : trimEnd p (cs ++ ds) = trimEnd p cs := by
  have hreverse : ∀ d ∈ ds.reverse, p d := fun d hd => hds d (List.mem_reverse.mp hd)
  rw [trimEnd, List.reverse_append, List.dropWhile_append_of_pos hreverse, trimEnd]

/-- The end of an appended text is trimmed, if something is left of it. -/
lemma trimEnd_append (hds : trimEnd p ds ≠ []) : trimEnd p (cs ++ ds) = cs ++ trimEnd p ds := by
  have hne : ds.reverse.dropWhile p ≠ [] := fun h => hds (by rw [trimEnd, h, List.reverse_nil])
  rw [trimEnd, List.reverse_append, List.dropWhile_append, if_neg (by simpa using hne),
    List.reverse_append, List.reverse_reverse, trimEnd]

/-- The beginning of a text is trimmed, if something is left of it. -/
lemma trimStart_append (hcs : trim p cs ≠ []) : trimStart p (cs ++ ds) = trimStart p cs ++ ds := by
  have hne : cs.dropWhile p ≠ [] := fun h => hcs (by rw [trim, trimStart, h]; rfl)
  rw [trimStart, List.dropWhile_append, if_neg (by simpa using hne), trimStart]

/-- What is trimmed can be added at the end. -/
lemma trim_append_of_forall (hds : ∀ d ∈ ds, p d) : trim p (cs ++ ds) = trim p cs := by
  by_cases hcs : trim p cs = []
  · have hall : ∀ c ∈ cs ++ ds, p c := fun c hc =>
      (List.mem_append.mp hc).elim (trim_eq_nil_iff.mp hcs c) (hds c)
    rw [hcs, trim_eq_nil_iff.mpr hall]
  · rw [trim, trimStart_append hcs, trimEnd_append_of_forall hds, trim]

/-- Appended texts are trimmed at the outer ends, if something is left of both. -/
lemma trim_append (hcs : trim p cs ≠ []) (hds : trimEnd p ds ≠ []) :
    trim p (cs ++ ds) = trimStart p cs ++ trimEnd p ds := by
  rw [trim, trimStart_append hcs, trimEnd_append hds]

lemma takeWhile_append_of_trim_ne_nil (hcs : trim p cs ≠ []) :
    (cs ++ ds).takeWhile p = cs.takeWhile p := by
  rw [List.takeWhile_append, if_neg]
  intro hlength
  have hself := (List.takeWhile_prefix p).eq_of_length hlength
  exact hcs (trim_eq_nil_iff.mpr (List.takeWhile_eq_self_iff.mp hself))

/-! ## The first character -/

lemma head?_trim (p : Char → Bool) (cs : List Char) :
    (trim p cs).head? = (trimStart p cs).head? := by
  obtain ⟨after, hafter⟩ := List.rdropWhile_prefix p (l := trimStart p cs)
  have hend : trim p cs ++ after = trimStart p cs := hafter
  by_cases hcs : trim p cs = []
  · have hall : cs.dropWhile p = [] := List.dropWhile_eq_nil_iff.mpr (trim_eq_nil_iff.mp hcs)
    rw [hcs, trimStart, hall]
  · rw [← hend, List.head?_append_of_ne_nil _ hcs]

/-- A trimmed text does not begin with a character that is trimmed. -/
lemma head?_trim_not (h : (trim p cs).head? = some c) : p c = false := by
  have hstart := List.head?_dropWhile_not p cs
  rw [head?_trim, trimStart] at h
  rwa [h] at hstart

end DeclIR.Text
