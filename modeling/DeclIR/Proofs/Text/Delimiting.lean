import DeclIR.Decimal.Layout
import DeclIR.Text.Quoted
import Mathlib.Tactic.Lemma
import Mathlib.Tactic.SplitIfs

/-!
# Where a text ends

A text that stands before others in a line can be told from what is behind it.  One that is made of
some kind of characters ends before the first character that is not of this kind
(`append_inj_of_ends`), and a quoted text ends at the first quote mark that has no backslash of its
own (`Quoted.Escaped.append_inj`).

Numerals and quoted texts are made of characters that are known, and a line feed is not among them.
-/

namespace DeclIR.Text

variable {p : Char → Bool} {c : Char} {cs cs' ds ds' : List Char}

/-- No further character of the kind `p` follows. -/
def Ends (p : Char → Bool) (ds : List Char) : Prop := ∀ d ∈ ds.head?, p d = false

lemma ends_nil : Ends p [] := by
  intro d hd
  cases hd

/-- A character of another kind ends a scan. -/
lemma ends_cons (h : p c = false) : Ends p (c :: cs) := by
  intro d hd
  cases hd
  exact h

/-- A scan takes all characters of the kind that it looks for. -/
lemma takeWhile_append_of_ends (hcs : ∀ c ∈ cs, p c) (hds : Ends p ds) :
    (cs ++ ds).takeWhile p = cs := by
  rw [List.takeWhile_append_of_pos hcs]
  cases ds with
  | nil => rw [List.takeWhile_nil, List.append_nil]
  | cons d ds =>
    have hd := hds d rfl
    rw [List.takeWhile_cons_of_neg (by simp [hd]), List.append_nil]

/-- A run of characters of one kind is told from what is behind it. -/
lemma append_inj_of_ends (hcs : ∀ c ∈ cs, p c) (hcs' : ∀ c ∈ cs', p c) (hds : Ends p ds)
    (hds' : Ends p ds') (h : cs ++ ds = cs' ++ ds') : cs = cs' ∧ ds = ds' := by
  have heq : cs = cs' := by
    rw [← takeWhile_append_of_ends hcs hds, h, takeWhile_append_of_ends hcs' hds']
  subst heq
  exact ⟨rfl, List.append_cancel_left h⟩

/-! ## Numerals -/

/-- The digits of a number in some base are digits of the base. -/
lemma exists_digitChar_of_mem_toDigits {b n : Nat} (hb : 1 < b) (h : c ∈ Nat.toDigits b n) :
    ∃ d < b, c = Nat.digitChar d := by
  induction n using Nat.strongRecOn with
  | ind n ih =>
    rw [Nat.toDigits_eq_if hb] at h
    split at h
    · rename_i hn
      exact ⟨n, hn, List.mem_singleton.mp h⟩
    · rename_i hn
      rcases List.mem_append.mp h with h | h
      · exact ih (n / b) (Nat.div_lt_self (by omega) hb) h
      · exact ⟨n % b, Nat.mod_lt _ (by omega), List.mem_singleton.mp h⟩

/-- A number is read off from its digits. -/
lemma toDigits_inj {b m n : Nat} (hb : 1 < b) (hb' : b ≤ 16)
    (h : Nat.toDigits b m = Nat.toDigits b n) : m = n := by
  have hchar : ∀ d < 16, ∀ e < 16, Nat.digitChar d = Nat.digitChar e → d = e := by decide
  have hmod (k : Nat) : k % b < 16 := Nat.lt_of_lt_of_le (Nat.mod_lt k (by omega)) hb'
  induction m using Nat.strongRecOn generalizing n with
  | ind m ih =>
    -- Either number has one digit only if the other one has.
    have hone : m < b ↔ n < b := by
      have hlength (k : Nat) : (Nat.toDigits b k).length ≤ 1 ↔ k < b := by
        rw [Nat.length_toDigits_le_iff hb Nat.one_pos, Nat.pow_one]
      rw [← hlength, ← hlength, h]
    by_cases hm : m < b
    · have hn : n < b := hone.mp hm
      rw [Nat.toDigits_of_lt_base hm, Nat.toDigits_of_lt_base hn] at h
      exact hchar m (by omega) n (by omega) (List.cons.inj h).1
    · have hn : ¬n < b := fun hn => hm (hone.mpr hn)
      rw [Nat.toDigits_of_base_le hb (Nat.not_lt.mp hm),
        Nat.toDigits_of_base_le hb (Nat.not_lt.mp hn)] at h
      obtain ⟨hfirst, hlast⟩ := List.append_inj' h rfl
      have hdiv : m / b = n / b := ih (m / b) (Nat.div_lt_self (by omega) hb) hfirst
      have hrest : m % b = n % b := hchar _ (hmod m) _ (hmod n) (List.cons.inj hlast).1
      rw [← Nat.div_add_mod m b, ← Nat.div_add_mod n b, hdiv, hrest]

/-- The characters of a numeral. -/
def isNumeral (c : Char) : Bool := c.isDigit || c = '-'

lemma isNumeral_of_mem_nat {n : Nat} (h : c ∈ (toString n).toList) : isNumeral c = true := by
  rw [Nat.toString_eq_ofList_toDigits, String.toList_ofList] at h
  rw [isNumeral, Nat.isDigit_of_mem_toDigits (by decide) (by decide) h, Bool.true_or]

/-- A whole number is written by numerals. -/
lemma isNumeral_of_mem_int {n : Int} (h : c ∈ (toString n).toList) : isNumeral c = true := by
  rw [Int.toString_eq_repr, Int.repr_eq_if] at h
  split at h
  · rw [← Nat.toString_eq_repr] at h
    exact isNumeral_of_mem_nat h
  · rw [String.toList_append, List.mem_append, ← Nat.toString_eq_repr] at h
    rcases h with h | h
    · rw [List.mem_singleton.mp h]
      decide
    · exact isNumeral_of_mem_nat h

lemma toList_int_ne_nil (n : Int) : (toString n).toList ≠ [] := by
  rw [Int.toString_eq_repr, Int.repr_eq_if]
  split
  · exact fun h => Nat.repr_ne_empty (String.toList_eq_nil_iff.mp h)
  · simp

/-- A number is told from what is behind it, unless that goes on with a digit. -/
lemma nat_append_inj {m n : Nat} (hds : Ends isNumeral ds) (hds' : Ends isNumeral ds')
    (h : (toString m).toList ++ ds = (toString n).toList ++ ds') : m = n ∧ ds = ds' := by
  obtain ⟨hdigits, hrest⟩ := append_inj_of_ends (fun _ => isNumeral_of_mem_nat)
    (fun _ => isNumeral_of_mem_nat) hds hds' h
  rw [Nat.toString_eq_ofList_toDigits, Nat.toString_eq_ofList_toDigits, String.toList_ofList,
    String.toList_ofList] at hdigits
  exact ⟨toDigits_inj (by decide) (by decide) hdigits, hrest⟩

/-! ## Quoted texts -/

namespace Quoted

/-- A text in which each backslash takes away the meaning of the character behind it, and in which
`quote` has no other meaning left. -/
inductive Escaped (quote : Char) : List Char → Prop
  | nil : Escaped quote []
  | plain {c : Char} {cs : List Char} (hquote : c ≠ quote) (hslash : c ≠ '\\')
      (h : Escaped quote cs) : Escaped quote (c :: cs)
  | escape {c : Char} {cs : List Char} (h : Escaped quote cs) : Escaped quote ('\\' :: c :: cs)

variable {quote : Char}

/-- Escaped texts make an escaped text. -/
lemma Escaped.append (h : Escaped quote cs) (h' : Escaped quote ds) : Escaped quote (cs ++ ds) := by
  induction h with
  | nil => exact h'
  | plain hquote hslash _ ih => exact .plain hquote hslash ih
  | escape _ ih => exact .escape ih

/-- A text without backslashes and active marks is escaped. -/
lemma Escaped.of_forall (h : ∀ c ∈ cs, c ≠ quote ∧ c ≠ '\\') : Escaped quote cs := by
  induction cs with
  | nil => exact .nil
  | cons c cs ih =>
    obtain ⟨⟨hquote, hslash⟩, hcs⟩ := List.forall_mem_cons.mp h
    exact .plain hquote hslash (ih hcs)

/-- A quoted text ends at the first quote mark that has a meaning. -/
lemma Escaped.append_inj (hslash : quote ≠ '\\') (h : Escaped quote cs) (h' : Escaped quote cs')
    (heq : cs ++ quote :: ds = cs' ++ quote :: ds') : cs = cs' ∧ ds = ds' := by
  -- Both texts are read in step; a mark in one cannot be an escaped or a plain character of the
  -- other.
  induction h generalizing cs' with
  | nil =>
    cases h' with
    | nil => exact ⟨rfl, (List.cons.inj heq).2⟩
    | plain hquote' => exact absurd (List.cons.inj heq).1.symm hquote'
    | escape => exact absurd (List.cons.inj heq).1 hslash
  | plain hquote hc _ ih =>
    cases h' with
    | nil => exact absurd (List.cons.inj heq).1 hquote
    | plain _ _ h' =>
      obtain ⟨rfl, htail⟩ := List.cons.inj heq
      obtain ⟨rfl, rfl⟩ := ih h' htail
      exact ⟨rfl, rfl⟩
    | escape => exact absurd (List.cons.inj heq).1 hc
  | escape _ ih =>
    cases h' with
    | nil => exact absurd (List.cons.inj heq).1.symm hslash
    | plain _ hc' => exact absurd (List.cons.inj heq).1.symm hc'
    | escape h' =>
      obtain ⟨rfl, htail⟩ := List.cons.inj (List.cons.inj heq).2
      obtain ⟨rfl, rfl⟩ := ih h' htail
      exact ⟨rfl, rfl⟩

/-- The marks that a text is quoted by. -/
def IsMark (quote : Char) : Prop := quote = '"' ∨ quote = '\''

lemma IsMark.ne_slash (h : IsMark quote) : quote ≠ '\\' := by
  rcases h with rfl | rfl <;> decide

/-- A digit of a code point is none of the characters that have a meaning in quoted texts. -/
lemma plain_of_mem_hexDigits {n : Nat} (h : c ∈ hexDigits n) :
    c ≠ '"' ∧ c ≠ '\'' ∧ c ≠ '\\' ∧ c ≠ '\n' := by
  obtain ⟨d, hd, rfl⟩ := exists_digitChar_of_mem_toDigits (by decide) h
  have hall : ∀ d < 16, Nat.digitChar d ≠ '"' ∧ Nat.digitChar d ≠ '\'' ∧
      Nat.digitChar d ≠ '\\' ∧ Nat.digitChar d ≠ '\n' := by decide
  exact hall d hd

/-- What stands behind the backslash and the letter of a hexadecimal escape. -/
lemma plain_of_mem_codePoint {n : Nat} (h : c ∈ '\x7b' :: hexDigits n ++ ['\x7d']) :
    c ≠ '"' ∧ c ≠ '\'' ∧ c ≠ '\\' ∧ c ≠ '\n' := by
  rcases List.mem_append.mp h with h | h
  · rcases List.mem_cons.mp h with rfl | h
    · decide
    · exact plain_of_mem_hexDigits h
  · rw [List.mem_singleton.mp h]
    decide

/-- A character that needs no escape is no backslash and no line feed. -/
lemma plain_of_shortEscape? (h : shortEscape? c = none) : c ≠ '\\' ∧ c ≠ '\n' := by
  constructor
  · rintro rfl
    revert h
    decide
  · rintro rfl
    revert h
    decide

/-- The code of a character takes the meaning away from all that could end the text. -/
lemma escaped_encodeChar (hmark : IsMark quote) (c : Char) :
    Escaped quote (encodeChar quote c) := by
  rw [encodeChar]
  split
  · exact .escape .nil
  · rename_i hshort
    split
    · exact .escape .nil
    · rename_i hquote
      split
      · have hplain : ∀ d ∈ '\x7b' :: hexDigits c.toNat ++ ['\x7d'], d ≠ quote ∧ d ≠ '\\' := by
          intro d hd
          obtain ⟨hdouble, hsingle, hslash, -⟩ := plain_of_mem_codePoint hd
          rcases hmark with rfl | rfl
          · exact ⟨hdouble, hslash⟩
          · exact ⟨hsingle, hslash⟩
        exact .escape (.of_forall hplain)
      · exact .plain hquote (plain_of_shortEscape? hshort).1 .nil

/-- A quoted text is escaped between its marks. -/
lemma escaped_encode (hmark : IsMark quote) (cs : List Char) : Escaped quote (encode quote cs) := by
  induction cs with
  | nil => exact .nil
  | cons c cs ih =>
    rw [encode, List.flatMap_cons]
    exact (escaped_encodeChar hmark c).append ih

lemma feed_ne_of_shortEscape? {e : Char} (h : shortEscape? c = some e) : '\n' ≠ e := by
  rintro rfl
  rw [shortEscape?] at h
  split_ifs at h <;> simp at h

/-- The code of a character is on one line. -/
lemma feed_notMem_encodeChar (hmark : IsMark quote) (c : Char) : '\n' ∉ encodeChar quote c := by
  have hquote : '\n' ≠ quote := by rcases hmark with rfl | rfl <;> decide
  have hslash : '\n' ≠ '\\' := by decide
  rw [encodeChar]
  -- The cases are those of the definition: a short escape, the mark, a code point, the character.
  split
  · rename_i e hshort
    exact List.not_mem_cons_of_ne_of_not_mem hslash
      fun h => feed_ne_of_shortEscape? hshort (List.mem_singleton.mp h)
  · rename_i hshort
    split
    · exact List.not_mem_cons_of_ne_of_not_mem hslash fun h => hquote (List.mem_singleton.mp h)
    · split
      · intro h
        rcases List.mem_cons.mp h with h | h
        · exact hslash h
        · rcases List.mem_cons.mp h with h | h
          · revert h
            decide
          · obtain ⟨-, -, -, hfeed⟩ := plain_of_mem_codePoint h
            exact hfeed rfl
      · exact fun h => (plain_of_shortEscape? hshort).2 (List.mem_singleton.mp h).symm

/-- A text on one line is still on one line when it is quoted. -/
lemma feed_notMem_encode (hmark : IsMark quote) (cs : List Char) : '\n' ∉ encode quote cs := by
  intro hmem
  obtain ⟨c, -, hc⟩ := List.mem_flatMap.mp hmem
  exact feed_notMem_encodeChar hmark c hc

end Quoted

end DeclIR.Text

/-! ## Floating-point numbers -/

namespace DeclIR.Decimal

lemma feed_notMem_digitChars (n : Nat) : '\n' ∉ digitChars n := by
  intro h
  have hdigit := Nat.isDigit_of_mem_toDigits (by decide) (by decide) h
  revert hdigit
  decide

/-- A number in positional notation is written on one line. -/
lemma Scaled.feed_notMem_plain (s : Scaled) : '\n' ∉ s.plain := by
  have hdigits := feed_notMem_digitChars s.digits
  rw [plain]
  split
  · simp [hdigits]
  · show '\n' ∉ if _ then _ else _
    split
    · have htake (n : Nat) : '\n' ∉ (digitChars s.digits).take n :=
        fun h => hdigits (List.mem_of_mem_take h)
      have hdrop (n : Nat) : '\n' ∉ (digitChars s.digits).drop n :=
        fun h => hdigits (List.mem_of_mem_drop h)
      simp [htake, hdrop]
    · simp [hdigits]

/-- A number in scientific notation is written on one line. -/
lemma Scaled.feed_notMem_scientific (s : Scaled) : '\n' ∉ s.scientific := by
  have hdigits := feed_notMem_digitChars s.digits
  have hexponent : '\n' ∉ (toString s.leadingExponent).toList := fun h => by
    have hnumeral := Text.isNumeral_of_mem_int h
    revert hnumeral
    decide
  rw [scientific]
  split <;> simp_all

/-- A number is written on one line if its names are. -/
lemma Layout.feed_notMem_write {l : Layout} (hnan : '\n' ∉ l.nan.toList)
    (hinfinity : '\n' ∉ l.infinity.toList) (f : BinaryFormat) (word : Nat) :
    '\n' ∉ (l.write f word).toList := by
  have hsign (negative : Bool) : '\n' ∉ sign negative := by cases negative <;> decide
  rw [write, String.toList_ofList]
  split
  · exact hnan
  · simp [hsign, hinfinity]
  · simp [hsign]
  · simp only [List.mem_append, hsign, false_or]
    split
    · exact Scaled.feed_notMem_plain _
    · exact Scaled.feed_notMem_scientific _

end DeclIR.Decimal
