import DeclIR.Proofs.Settings.Outcomes
import Mathlib.Data.List.Forall2

/-!
# Comments behind a line

A comment behind an assignment, or behind any line that does not begin with a bracket, changes
nothing.  Behind a line that does, it takes the line's meaning: a header is known by the bracket at
its end, so that one with a comment behind it opens no section, or one by a name that has the
comment in it (`outcome_commented`).
-/

namespace DeclIR.Settings

open Text

/-- A line with a comment behind it. -/
def commented (line comment : List Char) : List Char := line ++ ' ' :: '#' :: comment

/-- The comment ends with a bracket, apart from white space. -/
def Closes (comment : List Char) : Prop := (trimEnd isBlank comment).getLast? = some ']'

instance (comment : List Char) : Decidable (Closes comment) := inferInstanceAs (Decidable (_ = _))

/-- The text with another line in place of a line of it. -/
def withLine (content : String) (i : Nat) (line : List Char) : String :=
  String.ofList (['\n'].intercalate ((textLines content).set i line))

variable {line line' comment : List Char} {a : Assignment}

/-! ## Lines that count for the same -/

/-- Whether a header opens the section `ir`, for a line that is one. -/
def opensIr? (line : List Char) : Option Bool :=
  (header? line).map fun name => decide (name = "ir".toList)

/-- The lines do the same to the section and assign the same to the two known keys. -/
structure Alike (line line' : List Char) : Prop where
  opens : opensIr? line = opensIr? line'
  known : (assignment? line).filter (·.IsKnown) = (assignment? line').filter (·.IsKnown)

lemma Alike.refl (line : List Char) : Alike line line := ⟨rfl, rfl⟩

/-- The section is the one that is read just when the nearest header opens it. -/
lemma nearestHeader?_eq_ir_iff (above : List (List Char)) :
    nearestHeader? above = some "ir".toList ↔ above.findSome? opensIr? = some true := by
  induction above with
  | nil => simp [nearestHeader?]
  | cons line above ih =>
    rw [nearestHeader?, List.findSome?_cons, List.findSome?_cons, opensIr?]
    cases header? line with
    | none => exact ih
    | some name => simp

/-- Lines that are alike make the same known assignments in the same sections. -/
lemma filter_assignmentsBelow_of_alike {above above' ls ls' : List (List Char)}
    (habove : above.findSome? opensIr? = above'.findSome? opensIr?)
    (h : List.Forall₂ Alike ls ls') :
    (assignmentsBelow above ls).filter (·.IsKnown) =
      (assignmentsBelow above' ls').filter (·.IsKnown) := by
  induction h generalizing above above' with
  | nil => rfl
  | @cons line line' rest rest' halike _ ih =>
    have hrest : (assignmentsBelow (line :: above) rest).filter (·.IsKnown) =
        (assignmentsBelow (line' :: above') rest').filter (·.IsKnown) := ih (by
      rw [List.findSome?_cons, List.findSome?_cons, halike.opens, habove])
    have hline : (assignmentIn? above line).filter (·.IsKnown) =
        (assignmentIn? above' line').filter (·.IsKnown) := by
      simp only [assignmentIn?, nearestHeader?_eq_ir_iff, habove]
      split
      · exact halike.known
      · rfl
    rw [assignmentsBelow, assignmentsBelow, List.filter_append, List.filter_append, hrest,
      ← Option.toList_filter, hline, Option.toList_filter]

/-! ## Another line in a text -/

lemma feed_notMem_splitOn (cs : List Char) : ∀ l ∈ cs.splitOn '\n', '\n' ∉ l := by
  induction cs with
  | nil => simp
  | cons c cs ih =>
    obtain ⟨first, rest, hsplit⟩ := List.exists_cons_of_ne_nil (List.splitOn_ne_nil '\n' cs)
    rw [hsplit] at ih
    rw [List.splitOn_cons_eq_if_modifyHead, hsplit]
    obtain ⟨hfirst, hrest⟩ := List.forall_mem_cons.mp ih
    by_cases hc : c = '\n'
    · rw [if_pos (beq_iff_eq.mpr hc)]
      exact List.forall_mem_cons.mpr ⟨List.not_mem_nil, ih⟩
    · rw [if_neg (by simpa using hc), List.modifyHead_cons]
      refine List.forall_mem_cons.mpr ⟨fun hmem => ?_, hrest⟩
      exact (List.mem_cons.mp hmem).elim (fun heq => hc heq.symm) hfirst

/-- To exchange a line of a text is to exchange it among the lines. -/
lemma textLines_withLine (content : String) (i : Nat) (hline : '\n' ∉ line) :
    textLines (withLine content i line) = (textLines content).set i line := by
  have hall : ∀ l ∈ (textLines content).set i line, '\n' ∉ l := fun l hl =>
    (List.mem_or_eq_of_mem_set hl).elim (feed_notMem_splitOn _ l) fun heq => heq ▸ hline
  have hne : (textLines content).set i line ≠ [] := by
    rw [Ne, List.set_eq_nil_iff]
    exact List.splitOn_ne_nil '\n' content.toList
  rw [withLine, textLines, String.toList_ofList]
  exact List.splitOn_intercalate '\n' hall hne

lemma withLine_self {content : String} {i : Nat} (h : (textLines content)[i]? = some line) :
    withLine content i line = content := by
  obtain ⟨hi, rfl⟩ := List.getElem?_eq_some_iff.mp h
  rw [withLine, List.set_getElem_self, intercalate_textLines, String.ofList_toList]

/-- To exchange a line for one that is alike makes a text that is alike. -/
lemma forall₂_alike_set (ls : List (List Char)) (i : Nat) (h : Alike line line') :
    List.Forall₂ Alike (ls.set i line) (ls.set i line') := by
  induction ls generalizing i with
  | nil => exact .nil
  | cons l ls ih =>
    cases i with
    | zero => exact .cons h (List.forall₂_same.mpr fun l _ => .refl l)
    | succ i => exact .cons (.refl l) (ih i)

/-- A line counts for what it does to the section and to the two known keys, and for nothing
else. -/
lemma outcome_withLine_of_alike (content : String) (i : Nat) (h : Alike line line')
    (hline : '\n' ∉ line) (hline' : '\n' ∉ line') :
    outcome (withLine content i line) = outcome (withLine content i line') := by
  rw [outcome_eq, outcome_eq, ← verdict_filter, ← verdict_filter (assignments _), assignments,
    assignments, textLines_withLine content i hline, textLines_withLine content i hline',
    filter_assignmentsBelow_of_alike rfl (forall₂_alike_set _ i h)]

/-! ## The line with the comment -/

lemma trimEnd_comment (comment : List Char) :
    trimEnd isBlank (' ' :: '#' :: comment) = ' ' :: '#' :: trimEnd isBlank comment := by
  show trimEnd isBlank ([' ', '#'] ++ comment) = _
  by_cases h : trimEnd isBlank comment = []
  · rw [trimEnd_append_of_forall (trimEnd_eq_nil_iff.mp h), h]
    rfl
  · exact trimEnd_append h

/-- A comment is trimmed at its end, and the line before it at its beginning. -/
lemma trim_commented (h : trim isBlank line ≠ []) :
    trim isBlank (commented line comment) =
      trimStart isBlank line ++ ' ' :: '#' :: trimEnd isBlank comment := by
  have hds : trimEnd isBlank (' ' :: '#' :: comment) ≠ [] := by simp [trimEnd_comment]
  rw [commented, trim_append h hds, trimEnd_comment]

/-- A line begins as before when a comment is added, unless it was blank. -/
lemma head?_trim_commented (line comment : List Char) :
    (trim isBlank (commented line comment)).head? =
      if trim isBlank line = [] then some '#' else (trim isBlank line).head? := by
  split
  · rename_i h
    rw [head?_trim, commented, trimStart,
      List.dropWhile_append_of_pos (trim_eq_nil_iff.mp h)]
    rfl
  · rename_i h
    have hne : trimStart isBlank line ≠ [] := fun hnil => h (by rw [trim, hnil]; rfl)
    rw [trim_commented h, List.head?_append_of_ne_nil _ hne, head?_trim]

/-- No known key has the sign of a comment or of a header in it. -/
lemma notMem_key_of_isKnown (h : a.IsKnown) : '#' ∉ a.key ∧ '[' ∉ a.key := by
  obtain h | h := h
  · rw [h]; decide
  · rw [h]; decide

/-- A key with a number sign or a bracket in it is not one of the two known ones. -/
lemma filter_assignment?_eq_none {c : Char} (hc : c = '#' ∨ c = '[')
    (hmem : c ∈ line.takeWhile (· ≠ '=')) : (assignment? line).filter (·.IsKnown) = none := by
  have hplain : isBlank c = false ∧ decide (c = '"') = false := by
    obtain rfl | rfl := hc <;> decide
  have hkey : c ∈ unquote (trim isBlank (line.takeWhile (· ≠ '='))) :=
    mem_trim (mem_trim hmem hplain.1) hplain.2
  by_cases hassigns : Assigns line
  · rw [hassigns.assignment?, Option.filter_some, if_neg]
    rw [decide_eq_true_eq]
    intro hknown
    obtain ⟨hsign, hbracket⟩ := notMem_key_of_isKnown hknown
    obtain rfl | rfl := hc
    · exact hsign hkey
    · exact hbracket hkey
  · rw [assignment?_eq_none_iff.mpr hassigns]
    rfl

/-! ## Lines that do not begin with a bracket -/

lemma opensIr?_of_not_header (h : ¬IsHeader line) : opensIr? line = none := by
  rw [opensIr?, header?_eq_none_iff.mpr h, Option.map_none]

/-- A comment behind a line with an equals sign does not change whether the line assigns. -/
lemma assigns_commented_iff (h : (trim isBlank line).head? ≠ some '[') (hequals : '=' ∈ line) :
    Assigns (commented line comment) ↔ Assigns line := by
  have hne : trim isBlank line ≠ [] := fun hnil => by
    have hblank := trim_eq_nil_iff.mp hnil '=' hequals
    revert hblank
    decide
  have hhead : (trim isBlank (commented line comment)).head? = (trim isBlank line).head? := by
    rw [head?_trim_commented, if_neg hne]
  have hne' : trim isBlank (commented line comment) ≠ [] := by
    rw [trim_commented hne]
    simp
  have hmem : '=' ∈ commented line comment := List.mem_append_left _ hequals
  have hheader : ¬IsHeader line := fun hheader => h hheader.1
  have hheader' : ¬IsHeader (commented line comment) := fun hheader => h (hhead ▸ hheader.1)
  constructor
  · rintro ⟨-, hcomment, -, -⟩
    rw [hhead] at hcomment
    exact ⟨hne, hcomment, hheader, hequals⟩
  · rintro ⟨-, hcomment, -, -⟩
    rw [← hhead] at hcomment
    exact ⟨hne', hcomment, hheader', hmem⟩

/-- The value ends before the comment.  If there is no equals sign in the line, one in the comment
has the number sign before it, and so in its key. -/
lemma alike_commented (h : (trim isBlank line).head? ≠ some '[') :
    Alike (commented line comment) line where
  opens := by
    have hheader' : ¬IsHeader (commented line comment) := fun hheader => by
      have hopen := hheader.1
      rw [head?_trim_commented] at hopen
      split at hopen
      · cases hopen
      · exact h hopen
    rw [opensIr?_of_not_header hheader', opensIr?_of_not_header fun hheader => h hheader.1]
  known := by
    -- With an equals sign, the value ends where the comment begins.
    by_cases hequals : '=' ∈ line
    · have hblank : ∀ c ∈ (' ' :: '#' :: comment).takeWhile (· ≠ '#'), isBlank c :=
        List.forall_mem_singleton.mpr (by decide)
      rw [commented, assignment?_append hblank (assigns_commented_iff h hequals)]
    · have hall : ∀ c ∈ line, decide (c ≠ '=') = true := fun c hc => by
        simpa using fun heq : c = '=' => hequals (heq ▸ hc)
      have hsign : '#' ∈ (commented line comment).takeWhile (· ≠ '=') := by
        rw [commented, List.takeWhile_append_of_pos hall]
        exact List.mem_append_right _ (.tail _ (.head _))
      have hnone : assignment? line = none :=
        assignment?_eq_none_iff.mpr fun hassigns => hequals hassigns.2.2.2
      rw [filter_assignment?_eq_none (.inl rfl) hsign, hnone]
      rfl

/-! ## Lines that begin with a bracket -/

section Bracket

variable (h : (trim isBlank line).head? = some '[')
include h

lemma trim_ne_nil_of_bracket : trim isBlank line ≠ [] := fun hnil => by
  rw [hnil] at h
  cases h

/-- A comment behind a line that begins like a header makes it one just when the comment closes the
bracket. -/
lemma isHeader_commented_iff : IsHeader (commented line comment) ↔ Closes comment := by
  have hne := trim_ne_nil_of_bracket h
  have hlast : (trim isBlank (commented line comment)).getLast? =
      (' ' :: '#' :: trimEnd isBlank comment).getLast? := by
    rw [trim_commented hne, List.getLast?_append_of_ne_nil _ (List.cons_ne_nil _ _)]
  rw [IsHeader, head?_trim_commented, if_neg hne, and_iff_right h, hlast, Closes]
  -- An empty comment ends with its number sign, which is no bracket.
  cases trimEnd isBlank comment with
  | nil => decide
  | cons c cs => rw [List.getLast?_cons_cons, List.getLast?_cons_cons]

/-- A line that begins like a header is blank up to the bracket. -/
lemma exists_eq_of_bracket :
    ∃ rest, trimStart isBlank line = '[' :: rest ∧
      line = line.takeWhile isBlank ++ '[' :: rest := by
  rw [head?_trim] at h
  obtain ⟨rest, hrest⟩ := List.head?_eq_some_iff.mp h
  refine ⟨rest, hrest, ?_⟩
  rw [← hrest, trimStart, List.takeWhile_append_dropWhile]

/-- The comment is part of the name. -/
lemma opensIr?_commented (hclose : Closes comment) :
    opensIr? (commented line comment) = some false := by
  have hend : trimEnd isBlank comment ≠ [] := fun hnil => by
    rw [Closes, hnil] at hclose
    cases hclose
  obtain ⟨rest, hstart, -⟩ := exists_eq_of_bracket h
  have hinner : (trim isBlank (commented line comment)).tail.dropLast =
      rest ++ ' ' :: '#' :: (trimEnd isBlank comment).dropLast := by
    rw [trim_commented (trim_ne_nil_of_bracket h), hstart, List.cons_append, List.tail_cons,
      List.dropLast_append_of_ne_nil (List.cons_ne_nil _ _),
      List.dropLast_cons_of_ne_nil (List.cons_ne_nil _ _), List.dropLast_cons_of_ne_nil hend]
  have hsign : '#' ∈ trim isBlank (trim isBlank (commented line comment)).tail.dropLast := by
    rw [hinner]
    exact mem_trim (List.mem_append_right _ (.tail _ (.head _))) (by decide)
  have hir : '#' ∉ "ir".toList := by decide
  rw [opensIr?, header?, if_pos ((isHeader_commented_iff h).mpr hclose)]
  exact congrArg some (decide_eq_false fun hname => hir (hname ▸ hsign))

/-- The bracket is part of the key. -/
lemma filter_assignment?_commented :
    (assignment? (commented line comment)).filter (·.IsKnown) = none := by
  refine filter_assignment?_eq_none (.inr rfl) ?_
  obtain ⟨rest, -, hline⟩ := exists_eq_of_bracket h
  have hall : ∀ c ∈ line.takeWhile isBlank, decide (c ≠ '=') = true := fun c hc => by
    have hblank := List.mem_takeWhile_imp hc
    refine decide_eq_true fun heq => ?_
    rw [heq] at hblank
    revert hblank
    decide
  rw [commented, hline, List.append_assoc, List.takeWhile_append_of_pos hall]
  exact List.mem_append_right _ (.head _)

end Bracket

/-- A comment behind a line changes nothing, if the line does not begin with a bracket.  Behind a
line that does, and so behind every header, it takes the line's place: one that ends with a
bracket makes it the header of another section than `ir`, any other makes it say nothing. -/
theorem outcome_commented (content : String) (i : Nat) (line comment : List Char)
    (hline : (textLines content)[i]? = some line) (hcomment : '\n' ∉ comment) :
    ((trim isBlank line).head? ≠ some '[' →
      outcome (withLine content i (commented line comment)) = outcome content) ∧
    ((trim isBlank line).head? = some '[' →
      (Closes comment →
        outcome (withLine content i (commented line comment)) =
          outcome (withLine content i "[]".toList)) ∧
      (¬Closes comment →
        outcome (withLine content i (commented line comment)) =
          outcome (withLine content i []))) := by
  have hfeed : '\n' ∉ line :=
    feed_notMem_splitOn _ _ (List.mem_of_getElem? hline)
  have hfeed' : '\n' ∉ commented line comment := fun hmem =>
    (List.mem_append.mp hmem).elim hfeed fun hmem => by simp_all
  refine ⟨fun h => ?_, fun h => ⟨fun hclose => ?_, fun hopen => ?_⟩⟩
  · rw [outcome_withLine_of_alike content i (alike_commented h) hfeed' hfeed, withLine_self hline]
  · have halike : Alike (commented line comment) "[]".toList :=
      ⟨(opensIr?_commented h hclose).trans (by decide),
        (filter_assignment?_commented h).trans (by decide)⟩
    exact outcome_withLine_of_alike content i halike hfeed' (by decide)
  · have hheader := mt (isHeader_commented_iff h).mp hopen
    have halike : Alike (commented line comment) [] :=
      ⟨(opensIr?_of_not_header hheader).trans (by decide),
        (filter_assignment?_commented h).trans (by decide)⟩
    exact outcome_withLine_of_alike content i halike hfeed' (by decide)

/-- A text of one section with one assignment. -/
def switchedOn : String := "[ir]\nparallel = true"

/-- Behind the assignment a comment with the signs of all forms of lines in it changes nothing.
Behind the header, one that ends with a bracket and one that does not take the section away. -/
theorem outcome_commented_switchedOn :
    outcome (withLine switchedOn 1 (commented "parallel = true".toList " \"[x] = #]".toList)) =
      outcome switchedOn ∧
    outcome (withLine switchedOn 0 (commented "[ir]".toList " see [x] ".toList)) =
      outcome (withLine switchedOn 0 "[]".toList) ∧
    outcome (withLine switchedOn 0 (commented "[ir]".toList " passes".toList)) =
      outcome (withLine switchedOn 0 []) := by
  have hheader : (trim isBlank "[ir]".toList).head? = some '[' := by decide
  refine ⟨(outcome_commented switchedOn 1 "parallel = true".toList _ rfl (by decide)).1 (by decide),
    ?_, ?_⟩
  · obtain ⟨-, hbracket⟩ :=
      outcome_commented switchedOn 0 "[ir]".toList " see [x] ".toList rfl (by decide)
    exact (hbracket hheader).1 (by decide)
  · obtain ⟨-, hbracket⟩ :=
      outcome_commented switchedOn 0 "[ir]".toList " passes".toList rfl (by decide)
    exact (hbracket hheader).2 (by decide)

/-- Comments behind headers and assignments do matter: one behind the header takes the assignment
below out of the section. -/
theorem outcome_depends_on_comment :
    ¬∀ (content : String) (i : Nat) (line comment : List Char),
      (textLines content)[i]? = some line → '\n' ∉ comment →
      (∃ name, line = '[' :: (name ++ [']']) ∧ ∀ c ∈ name, c ∉ ['[', ']', '#']) ∨
        ('=' ∈ line ∧ line.head? ≠ some '[') →
      outcome (withLine content i (commented line comment)) = outcome content := by
  intro h
  have hname : ∃ name, "[ir]".toList = '[' :: (name ++ [']']) ∧ ∀ c ∈ name, c ∉ ['[', ']', '#'] :=
    ⟨"ir".toList, rfl,
      List.forall_mem_cons.mpr ⟨by decide, List.forall_mem_singleton.mpr (by decide)⟩⟩
  have hsame := h switchedOn 0 "[ir]".toList " passes".toList rfl (by decide) (.inl hname)
  have hdiffers : outcome (withLine switchedOn 0 (commented "[ir]".toList " passes".toList)) ≠
      outcome switchedOn := by decide +kernel
  exact hdiffers hsame

end DeclIR.Settings
