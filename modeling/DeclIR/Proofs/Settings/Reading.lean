import DeclIR.Settings
import DeclIR.Proofs.Text.Trimming

/-!
# What a line says

The form of a line of a configuration text, stated apart from how it is read: a line of the form
`[name]` is a header (`header?`); a line that is no header, comment or blank and has an equals sign
is an assignment (`assignment?`).  `Line.read` finds just these, and finds the value of an
assignment at its place in the line (`read_of_assignment`).  The line feed that ends a line plays no
part.
-/

namespace DeclIR.Settings

open Text

/-! ## Forms of lines -/

/-- The line has the form `[name]`. -/
def IsHeader (line : List Char) : Prop :=
  (trim isBlank line).head? = some '[' ∧ (trim isBlank line).getLast? = some ']'

instance (line : List Char) : Decidable (IsHeader line) := inferInstanceAs (Decidable (_ ∧ _))

/-- The name in a line of the form `[name]`. -/
def header? (line : List Char) : Option (List Char) :=
  if IsHeader line then some (trim isBlank (trim isBlank line).tail.dropLast) else none

/-- The line is not blank, no comment and no header, and has an equals sign. -/
def Assigns (line : List Char) : Prop :=
  trim isBlank line ≠ [] ∧ (trim isBlank line).head? ≠ some '#' ∧ ¬IsHeader line ∧ '=' ∈ line

instance (line : List Char) : Decidable (Assigns line) := inferInstanceAs (Decidable (_ ∧ _))

/-- A key and the value it is given. -/
structure Assignment where
  key : List Char
  value : List Char
deriving DecidableEq

/-- The text behind the first equals sign. -/
def behindEquals (line : List Char) : List Char := (line.dropWhile (· ≠ '=')).tail

/-- The assignment in a line: the key stands before the first equals sign, the value behind it up to
the next number sign. -/
def assignment? (line : List Char) : Option Assignment :=
  if Assigns line then
    some ⟨unquote (trim isBlank (line.takeWhile (· ≠ '='))),
      trim isBlank ((behindEquals line).takeWhile (· ≠ '#'))⟩
  else none

/-- The white space before the value in the text behind the equals sign.  An empty value has
none. -/
def gap (rest : List Char) : List Char :=
  if trim isBlank (rest.takeWhile (· ≠ '#')) = [] then []
  else (rest.takeWhile (· ≠ '#')).takeWhile isBlank

/-- The part of a line that comes before the value. -/
def leading (line : List Char) : List Char :=
  line.takeWhile (· ≠ '=') ++ '=' :: gap (behindEquals line)

variable {line rest name : List Char} {a : Assignment}

/-- A line has a title just when it is a header. -/
lemma header?_eq_none_iff : header? line = none ↔ ¬IsHeader line := by
  rw [header?]
  split <;> simp_all

/-- A line has an assignment just when it assigns. -/
lemma assignment?_eq_none_iff : assignment? line = none ↔ ¬Assigns line := by
  rw [assignment?]
  split <;> simp_all

/-- The assignment of a line has what is before the first equals sign for its key, and for its value
what is behind it up to a comment. -/
lemma Assigns.assignment? (h : Assigns line) :
    assignment? line = some ⟨unquote (trim isBlank (line.takeWhile (· ≠ '='))),
      trim isBlank ((behindEquals line).takeWhile (· ≠ '#'))⟩ := if_pos h

lemma assigns_of_assignment? (h : Settings.assignment? line = some a) : Assigns line := by
  by_contra hn
  rw [assignment?_eq_none_iff.mpr hn] at h
  cases h

/-! ## The place of the value -/

/-- The first equals sign parts a line. -/
lemma eq_append_behindEquals (h : '=' ∈ line) :
    line = line.takeWhile (· ≠ '=') ++ '=' :: behindEquals line := by
  have hmem : '=' ∈ line.dropWhile (· ≠ '=') := mem_dropWhile h (by decide)
  cases hdrop : line.dropWhile (· ≠ '=') with
  | nil => rw [hdrop] at hmem; cases hmem
  | cons c rest =>
    have hc : decide (c ≠ '=') = false := by
      have hhead := List.head?_dropWhile_not (fun c : Char => decide (c ≠ '=')) line
      rwa [hdrop] at hhead
    have hrest : behindEquals line = rest := by rw [behindEquals, hdrop, List.tail_cons]
    obtain rfl : c = '=' := by simpa using hc
    rw [hrest, ← hdrop, List.takeWhile_append_dropWhile]

lemma blank_of_mem_gap {c : Char} (h : c ∈ gap rest) : isBlank c := by
  unfold gap at h
  split at h
  · cases h
  · exact List.mem_takeWhile_imp h

/-- The value follows the white space in front of it. -/
lemma exists_eq_gap_append (rest : List Char) :
    ∃ after, rest = gap rest ++ (trim isBlank (rest.takeWhile (· ≠ '#')) ++ after) := by
  unfold gap
  split
  · rename_i hvalue
    exact ⟨rest, by rw [hvalue]; rfl⟩
  · obtain ⟨after, hafter⟩ := exists_eq_append_trim isBlank (rest.takeWhile (· ≠ '#'))
    refine ⟨after ++ rest.dropWhile (· ≠ '#'), ?_⟩
    rw [← List.append_assoc _ after, ← List.append_assoc, ← hafter,
      List.takeWhile_append_dropWhile]

/-- The value is found at its place: it does not start with white space, so that it cannot occur in
the gap. -/
lemma occurrence?_value (rest : List Char) :
    occurrence? (trim isBlank (rest.takeWhile (· ≠ '#'))) rest = some (byteLength (gap rest)) := by
  obtain ⟨after, hafter⟩ := exists_eq_gap_append rest
  cases hvalue : trim isBlank (rest.takeWhile (· ≠ '#')) with
  | nil =>
    have hgap : gap rest = [] := if_pos hvalue
    rw [hgap]
    exact occurrence?_append [] rest
  | cons c value =>
    have hc : isBlank c = false := head?_trim_not (by rw [hvalue, List.head?_cons])
    have hgap : c ∉ gap rest := fun h => by
      rw [blank_of_mem_gap h] at hc
      cases hc
    rw [hvalue] at hafter
    conv_lhs => rw [hafter]
    exact occurrence?_append_of_head_notMem hgap after

/-- The value of an assignment is what is behind the equals sign up to a comment, trimmed. -/
lemma value_eq (h : assignment? line = some a) :
    a.value = trim isBlank ((behindEquals line).takeWhile (· ≠ '#')) := by
  rw [(assigns_of_assignment? h).assignment?] at h
  cases h
  rfl

/-! ## Text behind a line -/

lemma takeWhile_append_of_mem {c : Char} {cs : List Char} (h : c ∈ cs) (ds : List Char) :
    (cs ++ ds).takeWhile (· ≠ c) = cs.takeWhile (· ≠ c) := by
  rw [List.takeWhile_append, if_neg]
  intro hlength
  have hall := List.takeWhile_eq_self_iff.mp ((List.takeWhile_prefix _).eq_of_length hlength)
  simpa using hall c h

/-- What is added to a line is added behind its first equals sign. -/
lemma behindEquals_append (h : '=' ∈ line) (more : List Char) :
    behindEquals (line ++ more) = behindEquals line ++ more := by
  have hmem : '=' ∈ line.dropWhile (· ≠ '=') := mem_dropWhile h (by decide)
  have hne : line.dropWhile (· ≠ '=') ≠ [] := List.ne_nil_of_mem hmem
  rw [behindEquals, List.dropWhile_append, if_neg (by simpa using hne),
    List.tail_append_of_ne_nil hne, behindEquals]

/-- Text behind a line that is white space up to the next number sign is not part of the value. -/
lemma exists_takeWhile_append {more : List Char}
    (hmore : ∀ c ∈ more.takeWhile (· ≠ '#'), isBlank c) (rest : List Char) :
    ∃ blank, (rest ++ more).takeWhile (· ≠ '#') = rest.takeWhile (· ≠ '#') ++ blank ∧
      ∀ c ∈ blank, isBlank c := by
  by_cases hsign : '#' ∈ rest
  · refine ⟨[], ?_, fun c hc => by cases hc⟩
    rw [takeWhile_append_of_mem hsign, List.append_nil]
  · have hall : ∀ c ∈ rest, decide (c ≠ '#') = true := fun c hc => by
      simpa using fun hceq : c = '#' => hsign (hceq ▸ hc)
    refine ⟨more.takeWhile (· ≠ '#'), ?_, hmore⟩
    rw [List.takeWhile_append_of_pos hall, List.takeWhile_eq_self_iff.mpr hall]

section Append

variable {more : List Char} (hmore : ∀ c ∈ more.takeWhile (· ≠ '#'), isBlank c)
include hmore

/-- White space behind a value does not count, nor a comment. -/
lemma value_append (rest : List Char) :
    trim isBlank ((rest ++ more).takeWhile (· ≠ '#')) =
      trim isBlank (rest.takeWhile (· ≠ '#')) := by
  obtain ⟨blank, hblank, hall⟩ := exists_takeWhile_append hmore rest
  rw [hblank, trim_append_of_forall hall]

lemma gap_append (rest : List Char) : gap (rest ++ more) = gap rest := by
  obtain ⟨blank, hblank, hall⟩ := exists_takeWhile_append hmore rest
  rw [gap, gap, hblank, trim_append_of_forall hall]
  split
  · rfl
  · rename_i hvalue
    exact takeWhile_append_of_trim_ne_nil hvalue

/-- What leads to the value does not change when something is added to the line. -/
lemma leading_append (h : '=' ∈ line) : leading (line ++ more) = leading line := by
  rw [leading, takeWhile_append_of_mem h, behindEquals_append h, gap_append hmore, leading]

/-- A line that assigns makes the same assignment when something is added that does not count. -/
lemma assignment?_append (h : Assigns (line ++ more) ↔ Assigns line) :
    assignment? (line ++ more) = assignment? line := by
  by_cases hassigns : Assigns line
  · have hequals := hassigns.2.2.2
    rw [(h.mpr hassigns).assignment?, hassigns.assignment?, takeWhile_append_of_mem hequals,
      behindEquals_append hequals, value_append hmore]
  · rw [assignment?_eq_none_iff.mpr hassigns, assignment?_eq_none_iff.mpr (mt h.mp hassigns)]

end Append

/-! ## The line feed -/

lemma blank_of_mem_feed : ∀ c ∈ ['\n'].takeWhile (· ≠ '#'), isBlank c :=
  List.forall_mem_singleton.mpr (by decide)

lemma trim_append_feed (line : List Char) : trim isBlank (line ++ ['\n']) = trim isBlank line :=
  trim_append_of_forall (List.forall_mem_singleton.mpr (by decide))

lemma isHeader_append_feed : IsHeader (line ++ ['\n']) ↔ IsHeader line := by
  rw [IsHeader, trim_append_feed, IsHeader]

lemma header?_append_feed (line : List Char) : header? (line ++ ['\n']) = header? line := by
  simp only [header?, isHeader_append_feed, trim_append_feed]

lemma assigns_append_feed : Assigns (line ++ ['\n']) ↔ Assigns line := by
  have hmem : '=' ∈ line ++ ['\n'] ↔ '=' ∈ line := by simp
  rw [Assigns, trim_append_feed, isHeader_append_feed, hmem, Assigns]

/-- The line feed takes no part in an assignment. -/
lemma assignment?_append_feed (line : List Char) :
    assignment? (line ++ ['\n']) = assignment? line :=
  assignment?_append blank_of_mem_feed assigns_append_feed

/-! ## Reading -/

/-- A header is read as one. -/
lemma read_of_header (h : header? line = some name) : Line.read line = .header name := by
  by_cases hform : IsHeader line
  · rw [header?, if_pos hform] at h
    cases h
    obtain ⟨hopen, hclose⟩ := hform
    have hne : trim isBlank line ≠ [] := fun hnil => by
      rw [hnil] at hopen
      cases hopen
    simp [Line.read, hopen, hclose, hne]
  · rw [header?, if_neg hform] at h
    cases h

/-- A line with an equals sign is read as an assignment, with the bytes that lead to the value. -/
lemma readAssignment_eq (h : '=' ∈ line) :
    Line.readAssignment line =
      .assignment (unquote (trim isBlank (line.takeWhile (· ≠ '='))))
        (trim isBlank ((behindEquals line).takeWhile (· ≠ '#'))) (byteLength (leading line)) := by
  have hline := eq_append_behindEquals h
  have hdrop : line.dropWhile (· ≠ '=') = '=' :: behindEquals line :=
    List.append_cancel_left ((List.takeWhile_append_dropWhile ..).trans hline)
  have hlength : byteLength line = byteLength (line.takeWhile (· ≠ '=')) +
      (Char.utf8Size '=' + byteLength (behindEquals line)) := by
    conv_lhs => rw [hline, byteLength_append, byteLength]
  have hleading : byteLength (leading line) = byteLength line - byteLength (behindEquals line) +
      byteLength (gap (behindEquals line)) := by
    rw [leading, byteLength_append, byteLength]
    omega
  rw [Line.readAssignment, hdrop, hleading]
  simp only [valueOf, occurrence?_value, Option.getD_some]

/-- A line that is neither empty nor a comment or a header is read as an assignment. -/
lemma read_of_not_header (hempty : trim isBlank line ≠ [])
    (hcomment : (trim isBlank line).head? ≠ some '#') (hheader : ¬IsHeader line) :
    Line.read line = .readAssignment line := by
  unfold IsHeader at hheader
  simp [Line.read, hempty, hcomment, hheader]

/-- An assignment is read as one. -/
lemma read_of_assignment (h : assignment? line = some a) :
    Line.read line = .assignment a.key a.value (byteLength (leading line)) := by
  have hassigns := assigns_of_assignment? h
  obtain ⟨hempty, hcomment, hheader, hequals⟩ := hassigns
  rw [read_of_not_header hempty hcomment hheader, readAssignment_eq hequals]
  rw [Assigns.assignment? ⟨hempty, hcomment, hheader, hequals⟩] at h
  cases h
  rfl

/-- A line without a title or an assignment is passed over. -/
lemma read_of_idle (hheader : header? line = none) (h : assignment? line = none) :
    Line.read line = .idle := by
  rw [header?_eq_none_iff] at hheader
  rw [assignment?_eq_none_iff] at h
  by_cases hempty : trim isBlank line = []
  · simp [Line.read, hempty]
  by_cases hcomment : (trim isBlank line).head? = some '#'
  · simp [Line.read, hcomment]
  have hequals : '=' ∉ line := fun hequals => h ⟨hempty, hcomment, hheader, hequals⟩
  have hdrop : line.dropWhile (· ≠ '=') = [] := List.dropWhile_eq_nil_iff.mpr fun c hc => by
    simpa using fun hceq : c = '=' => hequals (hceq ▸ hc)
  rw [read_of_not_header hempty hcomment hheader, Line.readAssignment, hdrop]

end DeclIR.Settings
