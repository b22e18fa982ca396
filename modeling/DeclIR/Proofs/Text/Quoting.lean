import DeclIR.Proofs.Text.Delimiting
import Mathlib.Data.List.Nodup

/-!
# Reading quoted texts

Inside quote marks a character stands for itself, or a backslash stands before a letter, a mark or
the digits of a code point that stand for it (`Quoted.Code`).  No code is the beginning of another
one, so a quoted text is read back character by character (`Quoted.Spells.unique`).  Which
characters are written by their code points does not matter, as long as the backslash and the active
quote mark never stand for themselves.
-/

namespace DeclIR.Text.Quoted

variable {quote c d : Char} {cs cs' code code' ds ds' : List Char}

/-! ## Characters -/

/-- The characters that are written by a backslash and one further character. -/
def shortEscapes : List (Char × Char) :=
  [('\x00', '0'), ('\t', 't'), ('\r', 'r'), ('\n', 'n'), ('\\', '\\'), ('\'', '\''), ('"', '"')]

/-- The ways in which a character can be written between the marks `quote`. -/
inductive Code (quote c : Char) : List Char → Prop
  | plain (hquote : c ≠ quote) (hslash : c ≠ '\\') : Code quote c [c]
  | short {e : Char} (h : (c, e) ∈ shortEscapes) : Code quote c ['\\', e]
  | codePoint : Code quote c ('\\' :: 'u' :: '\x7b' :: (hexDigits c.toNat ++ ['\x7d']))

lemma mem_shortEscapes_of_shortEscape? {e : Char} (h : shortEscape? c = some e) :
    (c, e) ∈ shortEscapes := by
  rw [shortEscape?] at h
  split_ifs at h with hc hc hc hc hc <;> cases h <;> subst hc <;> decide

lemma mem_shortEscapes_of_isMark (h : IsMark quote) : (quote, quote) ∈ shortEscapes := by
  rcases h with rfl | rfl <;> decide

/-- A character is written by one of its codes. -/
lemma code_encodeChar (hmark : IsMark quote) (c : Char) : Code quote c (encodeChar quote c) := by
  rw [encodeChar]
  split
  · rename_i e he
    exact .short (mem_shortEscapes_of_shortEscape? he)
  · rename_i hshort
    split
    · rename_i hquote
      rw [hquote]
      exact .short (mem_shortEscapes_of_isMark hmark)
    · rename_i hquote
      split
      · exact .codePoint
      · exact .plain hquote (plain_of_shortEscape? hshort).1

/-- A letter behind a backslash stands for one character, and none stands for a code point. -/
lemma fst_eq_of_mem_shortEscapes {e : Char} (hc : (c, e) ∈ shortEscapes)
    (hd : (d, e) ∈ shortEscapes) : c = d ∧ e ≠ 'u' := by
  have hdistinct : (shortEscapes.map Prod.snd).Nodup := by decide
  have hother : 'u' ∉ shortEscapes.map Prod.snd := by decide
  constructor
  · exact congrArg Prod.fst (List.inj_on_of_nodup_map hdistinct hc hd rfl)
  · rintro rfl
    exact hother (List.mem_map_of_mem hc)

/-- The digits of a code point end at the closing brace. -/
lemma codePoint_append_inj
    (h : hexDigits c.toNat ++ '\x7d' :: ds = hexDigits d.toNat ++ '\x7d' :: ds') :
    c = d ∧ ds = ds' := by
  have hdigit (n : Nat) : ∀ x ∈ hexDigits n, decide (x ≠ '\x7d') = true := by
    intro x hx
    obtain ⟨k, hk, hchar⟩ := exists_digitChar_of_mem_toDigits (by decide) hx
    have hall : ∀ k < 16, decide (Nat.digitChar k ≠ '\x7d') = true := by decide
    rw [hchar]
    exact hall k hk
  obtain ⟨hcode, hrest⟩ := append_inj_of_ends (p := fun x => decide (x ≠ '\x7d'))
    (hdigit c.toNat) (hdigit d.toNat) (ends_cons (by decide)) (ends_cons (by decide)) h
  exact ⟨Char.toNat_inj.mp (toDigits_inj (by decide) (by decide) hcode), (List.cons.inj hrest).2⟩

/-- A character is told from what is behind it. -/
lemma Code.append_inj (h : Code quote c code) (h' : Code quote d code')
    (heq : code ++ ds = code' ++ ds') : c = d ∧ ds = ds' := by
  -- Only codes of the same kind begin alike: by a backslash or without, and then by the next
  -- letter.
  cases h with
  | plain hquote hslash =>
    cases h' with
    | plain => exact List.cons.inj heq
    | short => exact absurd (List.cons.inj heq).1 hslash
    | codePoint => exact absurd (List.cons.inj heq).1 hslash
  | short he =>
    cases h' with
    | plain _ hslash => exact absurd (List.cons.inj heq).1.symm hslash
    | short he' =>
      obtain ⟨hletter, hrest⟩ := List.cons.inj (List.cons.inj heq).2
      subst hletter
      exact ⟨(fst_eq_of_mem_shortEscapes he he').1, hrest⟩
    | codePoint =>
      have hletter := (List.cons.inj (List.cons.inj heq).2).1
      exact absurd hletter (fst_eq_of_mem_shortEscapes he he).2
  | codePoint =>
    cases h' with
    | plain _ hslash => exact absurd (List.cons.inj heq).1.symm hslash
    | short he' =>
      have hletter := (List.cons.inj (List.cons.inj heq).2).1
      exact absurd hletter.symm (fst_eq_of_mem_shortEscapes he' he').2
    | codePoint =>
      simp only [List.cons_append, List.append_assoc, List.nil_append] at heq
      have hdigits := (List.cons.inj (List.cons.inj (List.cons.inj heq).2).2).2
      exact codePoint_append_inj hdigits

/-- No code is empty. -/
lemma Code.exists_cons (h : Code quote c code) : ∃ x rest, code = x :: rest := by
  cases h with
  | plain => exact ⟨_, _, rfl⟩
  | short => exact ⟨_, _, rfl⟩
  | codePoint => exact ⟨_, _, rfl⟩

/-! ## Texts -/

/-- A text is written by the codes of its characters in turn. -/
inductive Spells (quote : Char) : List Char → List Char → Prop
  | nil : Spells quote [] []
  | cons {c : Char} {cs code rest : List Char} (hcode : Code quote c code)
      (hrest : Spells quote cs rest) : Spells quote (c :: cs) (code ++ rest)

/-- A quoted text spells the text between its marks. -/
lemma spells_encode (hmark : IsMark quote) (cs : List Char) :
    Spells quote cs (encode quote cs) := by
  induction cs with
  | nil => exact .nil
  | cons c cs ih =>
    rw [encode, List.flatMap_cons]
    exact .cons (code_encodeChar hmark c) ih

/-- A written text is that of one text only. -/
lemma Spells.unique (h : Spells quote cs ds) (h' : Spells quote cs' ds) : cs = cs' := by
  -- The codes are taken off one by one; the texts end together, as no code is empty.
  induction h generalizing cs' with
  | nil =>
    generalize hds : ([] : List Char) = ds at h'
    cases h' with
    | nil => rfl
    | cons hcode' =>
      obtain ⟨x, rest, hcons⟩ := hcode'.exists_cons
      rw [hcons] at hds
      cases hds
  | @cons c cs code rest hcode _ ih =>
    generalize hds : code ++ rest = ds at h'
    cases h' with
    | nil =>
      obtain ⟨x, rest, hcons⟩ := hcode.exists_cons
      rw [hcons] at hds
      cases hds
    | cons hcode' hrest' =>
      obtain ⟨hchar, hrest⟩ := hcode.append_inj hcode' hds
      subst hrest
      rw [hchar, ih hrest']

end DeclIR.Text.Quoted
