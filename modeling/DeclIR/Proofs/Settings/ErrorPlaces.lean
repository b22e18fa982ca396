import DeclIR.Proofs.Settings.Assignments

/-!
# Where an error is

The error about a configuration text lies at the value of the first malformed assignment, to the
byte: before it there are the lines above, the key with the first equals sign of the line and white
space, and nothing else (`error_points_at_value`).
-/

namespace DeclIR.Settings

open Text

variable {above ls : List (List Char)} {line : List Char} {a : Assignment} {offset : Nat}

/-- The first malformed assignment of a text, in its line with those above and below it. -/
structure FirstMalformed (content : String) (above : List (List Char)) (line : List Char)
    (below : List (List Char)) (a : Assignment) : Prop where
  lines : textLines content = above ++ line :: below
  assigns : assignmentIn? above.reverse line = some a
  malformed : a.IsMalformed
  above_fine : ∀ b ∈ assignmentsBelow [] above, ¬b.IsMalformed

/-! ## The lines above -/

/-- The text of a line with those above and below it. -/
lemma intercalate_append_cons (above : List (List Char)) (line : List Char)
    (below : List (List Char)) :
    ['\n'].intercalate (above ++ line :: below) =
      above.flatMap (· ++ ['\n']) ++ (line ++ below.flatMap ('\n' :: ·)) := by
  induction above with
  | nil =>
    induction below generalizing line with
    | nil => simp
    | cons next below ih =>
      have hnext := ih next
      simp only [List.nil_append, List.flatMap_nil] at hnext ⊢
      rw [List.intercalate_cons_cons, hnext, List.flatMap_cons]
      simp
  | cons first above ih =>
    have hne : above ++ line :: below ≠ [] := by simp
    rw [List.cons_append, List.intercalate_cons_of_ne_nil hne, ih, List.flatMap_cons]
    simp

/-- The assignment is that of a line among others, and its value comes behind the lines above and
what comes before it in the line.  The others follow the lines `above`, the nearest first, and start
`offset` bytes into the text. -/
structure Placed.StandsIn (x : Placed) (above : List (List Char)) (offset : Nat)
    (ls before : List (List Char)) (line : List Char) (after : List (List Char)) : Prop where
  lines : ls = before ++ line :: after
  assigns : assignmentIn? (before.reverse ++ above) line = some x.assignment
  start_eq : x.start = offset + byteLength (before.flatMap (· ++ ['\n']) ++ leading line)

/-- Under one more line the place is further on by the bytes of that line and its line feed. -/
lemma Placed.StandsIn.cons {x : Placed} {first : List Char} {before after : List (List Char)}
    (h : x.StandsIn (first :: above) (offset + byteLength first + 1) ls before line after) :
    x.StandsIn above offset (first :: ls) (first :: before) line after where
  lines := by rw [h.lines, List.cons_append]
  assigns := by
    rw [List.reverse_cons, List.append_assoc]
    exact h.assigns
  start_eq := by
    have hfeed : byteLength ['\n'] = 1 := rfl
    rw [h.start_eq]
    simp only [List.flatMap_cons, byteLength_append, hfeed]
    omega

/-- An assignment stands below the lines with the assignments that come before it. -/
lemma exists_standsIn {front back : List Placed} {x : Placed}
    (h : placedBelow above offset ls = front ++ x :: back) :
    ∃ before line after, x.StandsIn above offset ls before line after ∧
      assignmentsBelow above before = front.map (·.assignment) := by
  induction ls generalizing above offset front with
  | nil => simp [placedBelow] at h
  | cons line rest ih =>
    rw [placedBelow] at h
    cases hassign : assignmentIn? above line with
    | none =>
      rw [hassign] at h
      obtain ⟨before, line', after, hstands, hbefore⟩ := ih h
      refine ⟨line :: before, line', after, hstands.cons, ?_⟩
      rw [assignmentsBelow, hassign, hbefore]
      rfl
    | some a =>
      rw [hassign] at h
      -- The assignment of this line is the one that is looked for, or the first before it.
      cases front with
      | nil =>
        obtain ⟨rfl, -⟩ := List.cons_eq_cons.mp h
        exact ⟨[], line, rest, ⟨rfl, hassign, rfl⟩, rfl⟩
      | cons y front =>
        obtain ⟨rfl, htail⟩ := List.cons_eq_cons.mp h
        obtain ⟨before, line', after, hstands, hbefore⟩ := ih htail
        refine ⟨line :: before, line', after, hstands.cons, ?_⟩
        rw [assignmentsBelow, hassign, hbefore]
        rfl

/-- The error of a text belongs to its first malformed assignment. -/
lemma exists_of_parse_eq_error {content : String} {d : Diagnostic}
    (h : parse content = .error d) :
    ∃ above line below a, FirstMalformed content above line below a ∧
      d = a.diagnostic (byteLength (above.flatMap (· ++ ['\n']) ++ leading line)) := by
  obtain ⟨x, hfind, rfl⟩ := parse_eq_error_iff.mp h
  obtain ⟨hmalformed, front, back, hsplit, hfront⟩ := List.find?_eq_some_iff_append.mp hfind
  obtain ⟨above, line, below, ⟨hlines, hassign, hstart⟩, habove⟩ := exists_standsIn hsplit
  refine ⟨above, line, below, x.assignment, ⟨hlines, ?_, by simpa using hmalformed, ?_⟩, ?_⟩
  · rwa [List.append_nil] at hassign
  · intro b hb
    rw [habove] at hb
    obtain ⟨y, hy, rfl⟩ := List.mem_map.mp hb
    simpa using hfront y hy
  · rw [hstart, Nat.zero_add]

/-! ## Bytes -/

/-- A part of a text by the bytes before it and its own. -/
structure IsSlice (content : String) (start stop : Nat) (part : String) : Prop where
  start_le : start ≤ stop
  stop_le : stop ≤ content.utf8ByteSize
  start_valid : String.Pos.Raw.IsValid content ⟨start⟩
  stop_valid : String.Pos.Raw.IsValid content ⟨stop⟩
  bytes : content.toByteArray.extract start stop = part.toByteArray

/-- A part of a text is a slice of it, from the length before it to the length with it. -/
lemma isSlice_append (front part back : String) :
    IsSlice (front ++ part ++ back) front.utf8ByteSize (front ++ part).utf8ByteSize part where
  start_le := by rw [String.utf8ByteSize_append]; exact Nat.le_add_right ..
  stop_le := by rw [String.utf8ByteSize_append (s := front ++ part)]; exact Nat.le_add_right ..
  start_valid := String.Pos.Raw.isValid_iff_exists_append.mpr
    ⟨front, part ++ back, String.append_assoc .., rfl⟩
  stop_valid := String.Pos.Raw.isValid_iff_exists_append.mpr ⟨front ++ part, back, rfl, rfl⟩
  bytes := by
    rw [String.append_assoc, String.toByteArray_append, String.toByteArray_append,
      String.utf8ByteSize_append]
    have hshift := ByteArray.extract_append_size_add (a := front.toByteArray)
      (b := part.toByteArray ++ back.toByteArray) (i := 0) (j := part.utf8ByteSize)
    rw [Nat.add_zero] at hshift
    exact hshift.trans (ByteArray.extract_append_eq_left rfl)

/-! ## The value -/

/-- A line that assigns is the key, an equals sign, white space, the value and what is left. -/
lemma exists_line_eq (h : assignment? line = some a) :
    ∃ before blank after, line = before ++ '=' :: (blank ++ (a.value ++ after)) ∧
      '=' ∉ before ∧ (∀ c ∈ blank, isBlank c) ∧
      a.value = trim isBlank ((blank ++ (a.value ++ after)).takeWhile (· ≠ '#')) ∧
      leading line = before ++ '=' :: blank := by
  have hequals : '=' ∈ line := (assigns_of_assignment? h).2.2.2
  have hvalue := value_eq h
  obtain ⟨after, hafter⟩ := exists_eq_gap_append (behindEquals line)
  rw [← hvalue] at hafter
  refine ⟨line.takeWhile (· ≠ '='), gap (behindEquals line), after, ?_, ?_, ?_, ?_, rfl⟩
  · rw [← hafter]
    exact eq_append_behindEquals hequals
  · intro hmem
    simpa using List.mem_takeWhile_imp hmem
  · exact fun c hc => blank_of_mem_gap hc
  · rw [← hafter]
    exact hvalue

/-- The value of the first malformed assignment is a slice of the text. -/
lemma FirstMalformed.isSlice {content : String} {below : List (List Char)}
    (h : FirstMalformed content above line below a) :
    IsSlice content (byteLength (above.flatMap (· ++ ['\n']) ++ leading line))
      (byteLength (above.flatMap (· ++ ['\n']) ++ leading line) + byteLength a.value)
      (String.ofList a.value) := by
  obtain ⟨before, blank, after, hline, -, -, -, hleading⟩ :=
    exists_line_eq (assigns_of_assignmentIn? h.assigns)
  -- The text is what stands before the value, the value, and what stands behind it.
  have hcontent : content = String.ofList (above.flatMap (· ++ ['\n']) ++ leading line) ++
      String.ofList a.value ++ String.ofList (after ++ below.flatMap ('\n' :: ·)) := by
    rw [← String.toList_inj, ← intercalate_textLines, h.lines, intercalate_append_cons, hleading,
      hline]
    simp
  have hslice := isSlice_append (String.ofList (above.flatMap (· ++ ['\n']) ++ leading line))
    (String.ofList a.value) (String.ofList (after ++ below.flatMap ('\n' :: ·)))
  rwa [← hcontent, String.utf8ByteSize_append, utf8ByteSize_ofList, utf8ByteSize_ofList] at hslice

/-- An offset in a text that is small enough is kept. -/
lemma offset32_of_le {n size : Nat} (hsize : size < UInt32.size) (h : n ≤ size) :
    Span.offset32 n = n := Nat.mod_eq_of_lt (Nat.lt_of_le_of_lt h hsize)

/-- The error about a text of less than 4 GiB points at the value of the first malformed assignment.
It is that part of the line which follows the first equals sign and white space, and it is the
text up to the next number sign or the end of the line without the white space around it; the
message quotes it without the double quotes around it. -/
theorem error_points_at_value (content : String) (d : Diagnostic)
    (hsize : content.utf8ByteSize < UInt32.size) (h : parse content = .error d) :
    ∃ above line below a, FirstMalformed content above line below a ∧
      (∃ before blank after, line = before ++ '=' :: (blank ++ (a.value ++ after)) ∧
        '=' ∉ before ∧ (∀ c ∈ blank, isBlank c) ∧
        a.value = trim isBlank ((blank ++ (a.value ++ after)).takeWhile (· ≠ '#')) ∧
        d.span.start = byteLength (above.flatMap (· ++ ['\n']) ++ (before ++ '=' :: blank)) ∧
        d.span.stop = d.span.start + byteLength a.value) ∧
      IsSlice content d.span.start d.span.stop (String.ofList a.value) ∧
      d.message = "expected `true` or `false` for '" ++ String.ofList a.key ++ "', found '" ++
        String.ofList (unquote a.value) ++ "'" := by
  obtain ⟨above, line, below, a, hfirst, rfl⟩ := exists_of_parse_eq_error h
  obtain ⟨before, blank, after, hline, hbefore, hblank, hvalue, hleading⟩ :=
    exists_line_eq (assigns_of_assignmentIn? hfirst.assigns)
  have hslice := hfirst.isSlice
  -- The text is small enough for both ends to be kept as they are.
  rw [hleading] at hslice ⊢
  have hstop := offset32_of_le hsize hslice.stop_le
  have hstart := offset32_of_le hsize (hslice.start_le.trans hslice.stop_le)
  refine ⟨above, line, below, a, hfirst, ⟨before, blank, after, hline, hbefore, hblank, hvalue,
    hstart, ?_⟩, ?_, rfl⟩
  · show Span.offset32 _ = Span.offset32 _ + _
    rw [hstop, hstart]
  · show IsSlice content (Span.offset32 _) (Span.offset32 _) _
    rw [hstop, hstart]
    exact hslice

/-- A value that occurs in its key and in the comment behind it, too. -/
def misspelt : String := "# é\n[ir]\nparallel =\t \u00a0a # a\n"

/-- The error points behind the white space, which is two bytes wide at its end. -/
theorem error_points_at_value_misspelt :
    misspelt.utf8ByteSize < UInt32.size ∧
      ∃ d, parse misspelt = .error d ∧ d.span = ⟨0, 24, 25⟩ ∧ IsSlice misspelt 24 25 "a" := by
  have hsize : misspelt.utf8ByteSize < UInt32.size := by decide +kernel
  let a : Assignment := ⟨"parallel".toList, "a".toList⟩
  have hparse : parse misspelt = .error (a.diagnostic 24) := by decide +kernel
  obtain ⟨above, line, below, a', -, -, hslice, -⟩ := error_points_at_value _ _ hsize hparse
  have hbytes : misspelt.toByteArray.extract 24 25 = "a".toByteArray := by decide +kernel
  have hvalue : String.ofList a'.value = "a" :=
    String.toByteArray_inj.mp (hslice.bytes.symm.trans hbytes)
  rw [hvalue] at hslice
  exact ⟨hsize, _, hparse, rfl, hslice⟩

end DeclIR.Settings
