import DeclIR.Proofs.Settings.Reading

/-!
# The assignments of a configuration text

A configuration text is a list of lines, and an assignment counts if the nearest header above it is
`[ir]` (`assignments`).  Reading the text is carrying out these assignments one after the other
(`parse_eq_foldlM`), and it stops at the first that gives one of the two known keys a value that is
no truth value (`parse_eq_error_iff`, `parse_eq_ok_iff`).
-/

namespace DeclIR.Settings

open Text

/-! ## Lines and sections -/

/-- The lines of a text, without the line feeds between them. -/
def textLines (content : String) : List (List Char) := content.toList.splitOn '\n'

/-- The name in the nearest header, for a list of lines with the nearest first. -/
def nearestHeader? (above : List (List Char)) : Option (List Char) := above.findSome? header?

/-- What a line assigns, if the nearest header above it is `[ir]`. -/
def assignmentIn? (above : List (List Char)) (line : List Char) : Option Assignment :=
  if nearestHeader? above = some "ir".toList then assignment? line else none

/-- The assignments in some lines, in order.  The lines above them are given with the nearest
first. -/
def assignmentsBelow (above : List (List Char)) : List (List Char) → List Assignment
  | [] => []
  | line :: rest =>
    (assignmentIn? above line).toList ++ assignmentsBelow (line :: above) rest

/-- The assignments of a text that count, in order. -/
def assignments (content : String) : List Assignment := assignmentsBelow [] (textLines content)

/-! ## What an assignment does -/

namespace Assignment

variable (a : Assignment)

/-- The truth value that is assigned, if it is one. -/
def flag? : Option Bool :=
  if unquote a.value = "true".toList then some true
  else if unquote a.value = "false".toList then some false
  else none

/-- The key is one of the two that have a meaning. -/
def IsKnown : Prop := a.key = "parallel".toList ∨ a.key = "verify_after_each_pass".toList

instance : Decidable a.IsKnown := inferInstanceAs (Decidable (_ ∨ _))

/-- The key has a meaning, but the value is no truth value. -/
def IsMalformed : Prop := a.IsKnown ∧ a.flag? = none

instance : Decidable a.IsMalformed := inferInstanceAs (Decidable (_ ∧ _))

/-- What is wrong with a malformed assignment. -/
def complaint : String :=
  "expected `true` or `false` for '" ++ String.ofList a.key ++ "', found '" ++
    String.ofList (unquote a.value) ++ "'"

/-- The error for a malformed assignment whose value starts that many bytes into the text. -/
def diagnostic (start : Nat) : Diagnostic :=
  (Diagnostic.error a.complaint
    ⟨0, Span.offset32 start, Span.offset32 (start + byteLength a.value)⟩).withHelp
    ("write `" ++ String.ofList a.key ++ " = true` or `" ++ String.ofList a.key ++ " = false`")

end Assignment

/-- The settings after an assignment. -/
def set (s : Settings) (a : Assignment) : Settings where
  parallel := if a.key = "parallel".toList then a.flag?.getD s.parallel else s.parallel
  verifyAfterEachPass :=
    if a.key = "verify_after_each_pass".toList then a.flag?.getD s.verifyAfterEachPass
    else s.verifyAfterEachPass

/-- An assignment whose value starts that many bytes into the text. -/
structure Placed where
  assignment : Assignment
  start : Nat

/-- Carries out an assignment. -/
def place (s : Settings) (x : Placed) : Except Diagnostic Settings :=
  s.assign x.assignment.key x.assignment.value x.start

/-- The assignments in some lines with their places.  The first line starts that many bytes into the
text. -/
def placedBelow (above : List (List Char)) (offset : Nat) : List (List Char) → List Placed
  | [] => []
  | line :: rest =>
    ((assignmentIn? above line).map fun a => ⟨a, offset + byteLength (leading line)⟩).toList ++
      placedBelow (line :: above) (offset + byteLength line + 1) rest

variable {a : Assignment} {above : List (List Char)}

lemma intercalate_textLines (content : String) :
    ['\n'].intercalate (textLines content) = content.toList := List.intercalate_splitOn '\n'

/-! ## Carrying out assignments -/

/-- The flag of an assignment is read, or its diagnostic is raised. -/
lemma readBool_eq (a : Assignment) (start : Nat) :
    readBool a.key a.value start =
      match a.flag? with
      | some b => .ok b
      | none => .error (a.diagnostic start) := by
  have htext (t : String) : String.ofList (unquote a.value) = t ↔ unquote a.value = t.toList := by
    rw [← String.toList_inj, String.toList_ofList]
  simp only [readBool, htext, Assignment.flag?]
  split
  · rfl
  split <;> rfl

/-- A malformed assignment is refused with its diagnostic, whatever the settings are. -/
lemma assign_of_malformed (h : a.IsMalformed) (s : Settings) (start : Nat) :
    s.assign a.key a.value start = .error (a.diagnostic start) := by
  obtain ⟨hkey, hflag⟩ := h
  have hread := readBool_eq a start
  rw [hflag] at hread
  unfold assign
  split
  · rw [hread]; rfl
  split
  · rw [hread]; rfl
  · rename_i hparallel hverify
    exact (hkey.elim hparallel hverify).elim

/-- An assignment to no known key sets nothing. -/
lemma set_of_unknown (h : ¬a.IsKnown) (s : Settings) : s.set a = s := by
  obtain ⟨hparallel, hverify⟩ := not_or.mp h
  rw [set, if_neg hparallel, if_neg hverify]

/-- An assignment that is not malformed is carried out. -/
lemma assign_of_not_malformed (h : ¬a.IsMalformed) (s : Settings) (start : Nat) :
    s.assign a.key a.value start = .ok (s.set a) := by
  have hkeys : "verify_after_each_pass".toList ≠ "parallel".toList := by decide
  by_cases hkey : a.IsKnown
  · obtain ⟨b, hb⟩ := Option.ne_none_iff_exists'.mp fun hflag => h ⟨hkey, hflag⟩
    have hread := readBool_eq a start
    rw [hb] at hread
    unfold assign set
    rw [hb, hread]
    obtain hkey | hkey := hkey
    · rw [if_pos hkey, if_pos hkey, hkey, if_neg hkeys.symm]
      rfl
    · rw [hkey, if_neg hkeys, if_pos rfl, if_neg hkeys, if_pos rfl]
      rfl
  · obtain ⟨hparallel, hverify⟩ := not_or.mp hkey
    rw [set_of_unknown hkey, assign, if_neg hparallel, if_neg hverify]

/-- The first malformed assignment is the error. -/
lemma foldlM_place (xs : List Placed) (s : Settings) :
    xs.foldlM place s =
      match xs.find? (·.assignment.IsMalformed) with
      | some x => .error (x.assignment.diagnostic x.start)
      | none => .ok ((xs.map (·.assignment)).foldl set s) := by
  induction xs generalizing s with
  | nil => rfl
  | cons x xs ih =>
    rw [List.foldlM_cons, List.find?_cons, place]
    by_cases h : x.assignment.IsMalformed
    · rw [assign_of_malformed h, decide_eq_true h]
      rfl
    · rw [assign_of_not_malformed h, decide_eq_false h]
      exact ih (s.set x.assignment)

/-! ## Lines with their line feeds -/

/-- The lines of a text with a line feed at the end of each but the last, which does not count if it
is empty. -/
def withFeeds : List (List Char) → List (List Char)
  | [] => []
  | [line] => if line = [] then [] else [line]
  | line :: next :: rest => (line ++ ['\n']) :: withFeeds (next :: rest)

/-- Lines with their feeds are what line feeds cut the text into. -/
lemma lines_eq_withFeeds (cs : List Char) : lines cs = withFeeds (cs.splitOn '\n') := by
  induction cs with
  | nil => rfl
  | cons c cs ih =>
    obtain ⟨line, rest, hsplit⟩ := List.exists_cons_of_ne_nil (List.splitOn_ne_nil '\n' cs)
    rw [hsplit] at ih
    rw [lines, ih, List.splitOn_cons_eq_if_modifyHead, hsplit]
    by_cases hc : c = '\n'
    · rw [if_pos hc, if_pos (beq_iff_eq.mpr hc), hc]
      rfl
    · rw [if_neg hc, if_neg (by simpa using hc), List.modifyHead_cons]
      cases rest with
      | nil =>
        by_cases hline : line = []
        · simp [withFeeds, hline]
        · simp [withFeeds, hline]
      | cons next rest => rfl

/-! ## Reading lines -/

/-- The name in the nearest header, and nothing if there is none. -/
def title (above : List (List Char)) : List Char := (nearestHeader? above).getD []

/-- The title in force is the one of the nearest header. -/
lemma title_eq_ir_iff : title above = "ir".toList ↔ nearestHeader? above = some "ir".toList := by
  unfold title
  cases nearestHeader? above with
  | none => simp
  | some name => simp

/-- A line is read by carrying out what it assigns. -/
lemma readLines_cons (above : List (List Char)) (line : List Char) (rest : List (List Char))
    (s : Settings) (offset : Nat) :
    readLines s (title above) offset (line :: rest) =
      (((assignmentIn? above line).map fun a =>
        Placed.mk a (offset + byteLength (leading line))).toList.foldlM place s >>= fun s' =>
          readLines s' (title (line :: above)) (offset + byteLength line) rest) := by
  have htitle : title (line :: above) = (header? line).getD (title above) := by
    rw [title, nearestHeader?, List.findSome?_cons]
    cases header? line <;> rfl
  rw [readLines, htitle]
  -- A header assigns nothing, so the cases are those of `Line.read`.
  cases hheader : header? line with
  | some name =>
    have hnone : assignment? line = none := by
      rw [assignment?_eq_none_iff]
      rintro ⟨-, -, hform, -⟩
      rw [header?_eq_none_iff.mpr hform] at hheader
      cases hheader
    rw [read_of_header hheader, assignmentIn?, hnone, ite_self]
    rfl
  | none =>
    cases hassign : assignment? line with
    | none =>
      rw [read_of_idle hheader hassign, assignmentIn?, hassign, ite_self]
      rfl
    | some a =>
      rw [read_of_assignment hassign, assignmentIn?, hassign]
      by_cases hir : nearestHeader? above = some "ir".toList
      · simp only [if_pos hir, if_pos (title_eq_ir_iff.mpr hir)]
        simp [place]
      · simp only [if_neg hir, if_neg (mt title_eq_ir_iff.mp hir)]
        rfl

/-- The line feed of a header does not count. -/
lemma title_append_feed (above : List (List Char)) (line : List Char) :
    title ((line ++ ['\n']) :: above) = title (line :: above) := by
  simp only [title, nearestHeader?, List.findSome?_cons, header?_append_feed]

lemma assignmentIn?_append_feed (above : List (List Char)) (line : List Char) :
    assignmentIn? above (line ++ ['\n']) = assignmentIn? above line := by
  rw [assignmentIn?, assignment?_append_feed, assignmentIn?]

/-- An assignment in a section is one of its line. -/
lemma assigns_of_assignmentIn? {line : List Char} (h : assignmentIn? above line = some a) :
    assignment? line = some a := by
  unfold assignmentIn? at h
  split at h
  · exact h
  · cases h

/-- The place of a value does not depend on a line feed behind it. -/
lemma placed_append_feed (above : List (List Char)) (offset : Nat) (line : List Char) :
    ((assignmentIn? above (line ++ ['\n'])).map fun a =>
        Placed.mk a (offset + byteLength (leading (line ++ ['\n'])))) =
      (assignmentIn? above line).map fun a => Placed.mk a (offset + byteLength (leading line)) := by
  rw [assignmentIn?_append_feed]
  cases h : assignmentIn? above line with
  | none => rfl
  | some a =>
    have hassigns := assigns_of_assignment? (assigns_of_assignmentIn? h)
    rw [leading_append blank_of_mem_feed hassigns.2.2.2]

/-- Reading lines is carrying out their assignments. -/
lemma readLines_withFeeds (above : List (List Char)) (ls : List (List Char)) (s : Settings)
    (offset : Nat) :
    readLines s (title above) offset (withFeeds ls) =
      (placedBelow above offset ls).foldlM place s := by
  induction ls generalizing above s offset with
  | nil => rfl
  | cons line rest ih =>
    rw [placedBelow, List.foldlM_append]
    cases rest with
    | nil =>
      -- The last line has no line feed; it is not read if it is empty, but then it assigns nothing.
      by_cases hline : line = []
      · have hnone : assignmentIn? above [] = none := ite_self _
        rw [hline, hnone]
        rfl
      · rw [withFeeds, if_neg hline, readLines_cons]
        rfl
    | cons next rest =>
      have hbytes : byteLength (line ++ ['\n']) = byteLength line + 1 := byteLength_append ..
      rw [withFeeds, readLines_cons, placed_append_feed, title_append_feed, hbytes]
      congr 1
      funext s'
      exact ih (line :: above) s' _

/-- Reading a text is carrying out its assignments. -/
lemma parse_eq_foldlM (content : String) :
    parse content = (placedBelow [] 0 (textLines content)).foldlM place {} := by
  rw [parse, lines_eq_withFeeds]
  exact readLines_withFeeds [] _ _ 0

/-- The assignments of a text, without their places, do not depend on where it begins. -/
lemma map_assignment_placedBelow (above : List (List Char)) (offset : Nat)
    (ls : List (List Char)) :
    (placedBelow above offset ls).map (·.assignment) = assignmentsBelow above ls := by
  induction ls generalizing above offset with
  | nil => rfl
  | cons line rest ih =>
    rw [placedBelow, assignmentsBelow, List.map_append, ih]
    congr 1
    cases assignmentIn? above line <;> rfl

lemma mem_assignments_iff {content : String} :
    a ∈ assignments content ↔
      ∃ x ∈ placedBelow [] 0 (textLines content), x.assignment = a := by
  rw [assignments, ← map_assignment_placedBelow [] 0, List.mem_map]

/-- Reading fails just when an assignment is malformed, with the diagnostic of the first one. -/
lemma parse_eq_error_iff {content : String} {d : Diagnostic} :
    parse content = .error d ↔
      ∃ x, (placedBelow [] 0 (textLines content)).find? (·.assignment.IsMalformed) = some x ∧
        d = x.assignment.diagnostic x.start := by
  rw [parse_eq_foldlM, foldlM_place]
  cases (placedBelow [] 0 (textLines content)).find? (·.assignment.IsMalformed) with
  | none => simp
  | some x => simp [eq_comm]

/-- Reading succeeds just when no assignment is malformed, and carries all of them out in order. -/
lemma parse_eq_ok_iff {content : String} {s : Settings} :
    parse content = .ok s ↔
      (∀ a ∈ assignments content, ¬a.IsMalformed) ∧ s = (assignments content).foldl set {} := by
  rw [parse_eq_foldlM, foldlM_place, map_assignment_placedBelow, ← assignments]
  cases hfind : (placedBelow [] 0 (textLines content)).find? (·.assignment.IsMalformed) with
  | none =>
    have hnone : ∀ a ∈ assignments content, ¬a.IsMalformed := fun a ha => by
      obtain ⟨x, hx, rfl⟩ := mem_assignments_iff.mp ha
      simpa using List.find?_eq_none.mp hfind x hx
    rw [and_iff_right hnone]
    simp [eq_comm]
  | some x =>
    have hmalformed : x.assignment.IsMalformed := by simpa using List.find?_some hfind
    have hmem := mem_assignments_iff.mpr ⟨x, List.mem_of_find?_eq_some hfind, rfl⟩
    simp only [reduceCtorEq, false_iff, not_and]
    exact fun h => absurd hmalformed (h _ hmem)

end DeclIR.Settings
