import DeclIR.Proofs.Listing.Legibility
import DeclIR.Proofs.Text.Quoting
import Mathlib

/-!
# Literals told apart by their spelling

The first character of a spelling says which kind of literal it is, but for whole numbers, of which
the long ones have their sign at the end (`Literal.spelledType`).  Within a kind, numbers are read
back from their digits, and characters and strings from their codes.  So two literals that are
spelled the same way are equal (`Literal.text_eq_text_iff`).

This leaves out floating-point numbers: words that are no numbers are all spelled the same way.
-/

namespace DeclIR.Literal

open Text Listing

variable {c : Char} {cs : List Char}

/-! ## Kinds -/

/-- The type of the literals that are spelled this way, if they are no floating-point numbers. -/
def spelledType (cs : List Char) : Ty :=
  if cs.head? = some 'n' then .null
  else if cs.head? = some 't' ∨ cs.head? = some 'f' then .primitive .boolean
  else if cs.head? = some '\'' then .primitive .char
  else if cs.head? = some '"' then .string
  else if cs.getLast? = some 'L' then .primitive .long
  else .primitive .int

/-- What begins like a number is one, and the last character says which. -/
lemma spelledType_numeral (hc : isNumeral c = true) :
    spelledType (c :: cs) =
      if (c :: cs).getLast? = some 'L' then .primitive .long else .primitive .int := by
  have hne {d : Char} (hd : isNumeral d = false) : c ≠ d := by
    rintro rfl
    rw [hd] at hc
    cases hc
  have hnull : c ≠ 'n' := hne (by decide)
  have htrue : c ≠ 't' := hne (by decide)
  have hfalse : c ≠ 'f' := hne (by decide)
  have hsingle : c ≠ '\'' := hne (by decide)
  have hdouble : c ≠ '"' := hne (by decide)
  simp only [spelledType, List.head?_cons, Option.some.injEq, hnull, htrue, hfalse, hsingle,
    hdouble, or_self, if_false]

lemma toList_char (c : Char) :
    (Literal.char c).text.toList = '\'' :: (Quoted.encodeChar '\'' c ++ ['\'']) := by
  rw [text, Quoted.char, String.toList_ofList, List.cons_append]

lemma toList_string (s : String) :
    (Literal.string s).text.toList = '"' :: (Quoted.encode '"' s.toList ++ ['"']) := by
  rw [text, Quoted.string, String.toList_ofList, List.cons_append]

lemma toList_long (n : Int64) :
    (Literal.long n).text.toList = (toString n.toInt).toList ++ ['L'] := by
  have hsign : "L".toList = ['L'] := rfl
  rw [text, String.toList_append, hsign]

/-- A whole number begins with a digit or a minus sign. -/
lemma exists_cons_int (n : Int) :
    ∃ c cs, (toString n).toList = c :: cs ∧ isNumeral c = true := by
  obtain ⟨c, cs, hcons⟩ := List.exists_cons_of_ne_nil (toList_int_ne_nil n)
  refine ⟨c, cs, hcons, ?_⟩
  apply isNumeral_of_mem_int (n := n)
  rw [hcons]
  exact List.mem_cons_self

/-- The spelling of a literal says of which type it is. -/
lemma spelledType_text {v : Literal} (h : v.isFloating = false) :
    spelledType v.text.toList = v.type := by
  cases v with
  | bool b => cases b <;> decide
  | char c =>
    -- A quote mark stands at the front, where no number and no word has one.
    rw [toList_char]
    rfl
  | int n =>
    obtain ⟨c, cs, hcons, hc⟩ := exists_cons_int n.toInt
    have hlast : (c :: cs).getLast? ≠ some 'L' := by
      intro hL
      have hmem : 'L' ∈ (toString n.toInt).toList := by
        rw [hcons]
        exact List.mem_of_getLast? hL
      exact absurd (isNumeral_of_mem_int hmem) (by decide)
    show spelledType (toString n.toInt).toList = _
    rw [hcons, spelledType_numeral hc, if_neg hlast]
    rfl
  | long n =>
    -- An int and a long differ in their last character only.
    obtain ⟨c, cs, hcons, hc⟩ := exists_cons_int n.toInt
    have hlast : (c :: (cs ++ ['L'])).getLast? = some 'L' := by
      rw [← List.cons_append, List.getLast?_concat]
    rw [toList_long, hcons, List.cons_append, spelledType_numeral hc, if_pos hlast]
    rfl
  | float word => cases h
  | double word => cases h
  | string s =>
    rw [toList_string]
    rfl
  | null => decide

/-! ## Values -/

/-- A character is read back from its code between the marks. -/
lemma char_inj {c d : Char} (h : (Literal.char c).text = (Literal.char d).text) : c = d := by
  have hlist := congrArg String.toList h
  rw [toList_char, toList_char] at hlist
  exact ((Quoted.code_encodeChar (.inr rfl) c).append_inj (Quoted.code_encodeChar (.inr rfl) d)
    (List.cons.inj hlist).2).1

/-- A string is read back from the codes between the marks. -/
lemma string_inj {s t : String} (h : (Literal.string s).text = (Literal.string t).text) :
    s = t := by
  have hlist := congrArg String.toList h
  rw [toList_string, toList_string] at hlist
  have hcodes := List.append_cancel_right (List.cons.inj hlist).2
  have hs := Quoted.spells_encode (.inl rfl) s.toList
  rw [hcodes] at hs
  exact String.toList_injective (hs.unique (Quoted.spells_encode (.inl rfl) t.toList))

/-- A long number is read back from the digits before its sign. -/
lemma long_inj {m n : Int64} (h : (Literal.long m).text = (Literal.long n).text) : m = n := by
  have hlist := congrArg String.toList h
  rw [toList_long, toList_long] at hlist
  have hdigits := String.toList_injective (List.append_cancel_right hlist)
  exact Int64.toInt_inj.mp (Int.repr_inj.mp hdigits)

/-- Two literals are spelled the same way just when they are the same, of the same type and with the
same value. -/
theorem text_eq_text_iff {a b : Literal} (ha : a.isFloating = false) (hb : b.isFloating = false) :
    a.text = b.text ↔ a = b := by
  constructor
  · intro h
    have htype : a.type = b.type := by
      rw [← spelledType_text ha, ← spelledType_text hb, h]
    -- With the type known, only the values are left to be compared.
    cases a with
    | bool x =>
      cases b with
      | bool y =>
        revert h
        cases x <;> cases y <;> decide
      | _ => cases htype
    | char c =>
      cases b with
      | char d => exact congrArg Literal.char (char_inj h)
      | _ => cases htype
    | int m =>
      cases b with
      | int n => exact congrArg Literal.int (Int32.toInt_inj.mp (Int.repr_inj.mp h))
      | _ => cases htype
    | long m =>
      cases b with
      | long n => exact congrArg Literal.long (long_inj h)
      | _ => cases htype
    | float word => cases ha
    | double word => cases ha
    | string s =>
      cases b with
      | string t => exact congrArg Literal.string (string_inj h)
      | _ => cases htype
    | null =>
      cases b with
      | null => rfl
      | _ => cases htype
  · intro h
    rw [h]

/-- A line feed is not spelled like a backslash with an `n` behind it. -/
theorem text_feed_ne_text_backslash :
    (Literal.string "\n").text ≠ (Literal.string "\\n").text := by
  intro h
  have hsame := (text_eq_text_iff rfl rfl).mp h
  revert hsame
  decide

end DeclIR.Literal
