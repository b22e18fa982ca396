import DeclIR.Listing
import DeclIR.Proofs.Text.Delimiting

/-!
# Shapes of expressions

The text of an expression shows what it is made of: leaves, whose texts have no parts, accesses of
fields, and operators between operands (`Shape`).  As a nested operator stands in brackets, there is
one way to take a text apart (`Shape.text_inj`).
-/

namespace DeclIR.Listing

open Text

/-! ## Tokens -/

/-- The characters that a word ends before. -/
def isInner (c : Char) : Bool := c ≠ ' ' && c ≠ '.' && c ≠ ')'

lemma isInner_iff {c : Char} : isInner c = true ↔ c ∉ [' ', '.', ')'] := by
  simp [isInner, and_assoc]

/-- A text that ends before a space, a point or a closing bracket, and that begins neither with a
quote mark nor with an opening bracket. -/
structure Word (cs : List Char) : Prop where
  inner : ∀ c ∈ cs, isInner c
  opens : ∃ c ∈ cs.head?, c ∉ ['(', '"', '\'']

/-- Whether a text is a word. -/
def isWord (cs : List Char) : Bool :=
  cs.all isInner && cs.head?.any (· ∉ ['(', '"', '\''])

lemma word_of_isWord {cs : List Char} (h : isWord cs = true) : Word cs := by
  rw [isWord, Bool.and_eq_true, List.all_eq_true, Option.any_eq_true] at h
  obtain ⟨hinner, c, hc, hopens⟩ := h
  exact ⟨hinner, c, hc, by simpa using hopens⟩

/-- A text that is read as a whole. -/
inductive Token : List Char → Prop
  | word {cs : List Char} (h : Word cs) : Token cs
  | quoted {quote : Char} {cs : List Char} (hmark : Quoted.IsMark quote)
      (h : Quoted.Escaped quote cs) : Token (quote :: (cs ++ [quote]))

variable {cs cs' ds ds' : List Char}

/-- A word is told from what is behind it, unless that goes on with an inner character. -/
lemma Word.append_inj (h : Word cs) (h' : Word cs') (hds : Ends isInner ds)
    (hds' : Ends isInner ds') (heq : cs ++ ds = cs' ++ ds') : cs = cs' ∧ ds = ds' :=
  append_inj_of_ends h.inner h'.inner hds hds' heq

/-- A word does not begin like an expression in brackets or a quoted text. -/
lemma Word.exists_cons (h : Word cs) : ∃ c rest, cs = c :: rest ∧ c ∉ ['(', '"', '\''] := by
  obtain ⟨c, hc, hopens⟩ := h.opens
  obtain ⟨rest, rfl⟩ := List.head?_eq_some_iff.mp hc
  exact ⟨c, rest, rfl, hopens⟩

lemma mem_opens_of_isMark {quote : Char} (h : Quoted.IsMark quote) :
    quote ∈ ['(', '"', '\''] := by
  rcases h with rfl | rfl <;> decide

/-- No token begins with an opening bracket or like the text behind a token. -/
lemma Token.exists_cons (h : Token cs) : ∃ c rest, cs = c :: rest ∧ c ≠ '(' ∧ isInner c := by
  cases h with
  | word h =>
    obtain ⟨c, rest, rfl, hopens⟩ := h.exists_cons
    exact ⟨c, rest, rfl, fun heq => hopens (heq ▸ List.mem_cons_self), h.inner c List.mem_cons_self⟩
  | quoted hmark _ =>
    refine ⟨_, _, rfl, ?_⟩
    rcases hmark with rfl | rfl <;> decide

/-- A token does not read like an expression in brackets. -/
lemma Token.append_ne_bracket (h : Token cs) : cs ++ ds ≠ '(' :: ds' := by
  obtain ⟨c, rest, rfl, hopen, -⟩ := h.exists_cons
  exact fun heq => hopen (List.cons.inj heq).1

/-- A token is told from what is behind it. -/
lemma Token.append_inj (h : Token cs) (h' : Token cs') (hds : Ends isInner ds)
    (hds' : Ends isInner ds') (heq : cs ++ ds = cs' ++ ds') : cs = cs' ∧ ds = ds' := by
  cases h with
  | word h =>
    cases h' with
    | word h' => exact h.append_inj h' hds hds' heq
    | quoted hmark =>
      obtain ⟨c, rest, rfl, hopens⟩ := h.exists_cons
      exact absurd ((List.cons.inj heq).1 ▸ mem_opens_of_isMark hmark) hopens
  | @quoted quote cs hmark h =>
    cases h' with
    | word h' =>
      obtain ⟨c, rest, rfl, hopens⟩ := h'.exists_cons
      exact absurd ((List.cons.inj heq).1 ▸ mem_opens_of_isMark hmark) hopens
    | @quoted _ cs' _ h' =>
      obtain ⟨rfl, htail⟩ := List.cons.inj heq
      have hquoted : cs ++ quote :: ds = cs' ++ quote :: ds' := by simpa using htail
      obtain ⟨rfl, rfl⟩ := h.append_inj hmark.ne_slash h' hquoted
      exact ⟨rfl, rfl⟩

/-! ## Shapes and their texts -/

/-- What the text of an expression shows of it. -/
inductive Shape where
  | leaf (text : String)
  | access (receiver : Shape) (field : String)
  | binary (op : BinaryOp) (lhs rhs : Shape)
deriving DecidableEq, Repr

namespace Shape

/-- The text of a shape in the place of an operand, given its text elsewhere. -/
def inOperand (s : Shape) (text : List Char) : List Char :=
  match s with
  | binary .. => '(' :: (text ++ [')'])
  | _ => text

/-- The text of a shape. -/
def text : Shape → List Char
  | leaf t => t.toList
  | access receiver field => receiver.inOperand receiver.text ++ '.' :: field.toList
  | binary op lhs rhs =>
    lhs.inOperand lhs.text ++ ' ' :: (op.text.toList ++ ' ' :: rhs.inOperand rhs.text)

/-- The text of a shape in the place of an operand. -/
def operand (s : Shape) : List Char := s.inOperand s.text

/-- The leaves are tokens and the names of the fields are words. -/
def Readable : Shape → Prop
  | leaf t => Token t.toList
  | access receiver field => receiver.Readable ∧ Word field.toList
  | binary _ lhs rhs => lhs.Readable ∧ rhs.Readable

/-- The accesses of some fields, one after the other. -/
def accesses (s : Shape) (fields : List String) : Shape := fields.foldl access s

/-- The text of some accesses behind their receiver. -/
def trail (fields : List String) : List Char := fields.flatMap fun f => '.' :: f.toList

/-! ## Taking a text apart -/

/-- An operand is followed by a space or a closing bracket, if by anything. -/
def isOperand (c : Char) : Bool := c ≠ ' ' && c ≠ ')'

/-- Behind the accesses of a shape no inner character follows. -/
lemma ends_trail (fields : List String) (hds : Ends isOperand ds) :
    Ends isInner (trail fields ++ ds) := by
  cases fields with
  | nil =>
    intro d hd
    have hoperand := hds d hd
    simp only [isOperand, Bool.and_eq_false_iff] at hoperand
    rcases hoperand with h | h
    · rw [isInner, h, Bool.false_and, Bool.false_and]
    · rw [isInner, h, Bool.and_false]
  | cons f rest => exact ends_cons (by decide)

/-- The accesses behind a receiver are told from what is behind the operand. -/
lemma trail_append_inj {fields fields' : List String} (h : ∀ f ∈ fields, Word f.toList)
    (h' : ∀ f ∈ fields', Word f.toList) (hds : Ends isOperand ds) (hds' : Ends isOperand ds')
    (heq : trail fields ++ ds = trail fields' ++ ds') : fields = fields' ∧ ds = ds' := by
  induction fields generalizing fields' with
  | nil =>
    cases fields' with
    | nil => exact ⟨rfl, heq⟩
    | cons f' rest' =>
      -- One text goes on with an access, and the other one with what no operand begins with.
      have hpoint : '.' ∈ ds.head? := by rw [show ds = _ from heq]; rfl
      exact absurd (hds _ hpoint) (by decide)
  | cons f rest ih =>
    cases fields' with
    | nil =>
      have hpoint : '.' ∈ ds'.head? := by rw [show ds' = _ from heq.symm]; rfl
      exact absurd (hds' _ hpoint) (by decide)
    | cons f' rest' =>
      obtain ⟨hf, hrest⟩ := List.forall_mem_cons.mp h
      obtain ⟨hf', hrest'⟩ := List.forall_mem_cons.mp h'
      simp only [trail, List.flatMap_cons, List.cons_append, List.append_assoc] at heq
      obtain ⟨hname, htail⟩ := hf.append_inj hf' (ends_trail rest hds) (ends_trail rest' hds')
        (List.cons.inj heq).2
      obtain ⟨rfl, rfl⟩ := ih hrest hrest' htail
      rw [String.toList_inj.mp hname]
      exact ⟨rfl, rfl⟩

lemma word_opText (op : BinaryOp) : Word op.text.toList := by
  cases op <;> exact word_of_isWord (by decide)

/-- Operators are told apart by how they are written. -/
lemma opText_inj {op op' : BinaryOp} (h : op.text.toList = op'.text.toList) : op = op' := by
  revert h
  cases op <;> cases op' <;> decide

/-- The last access of an operand is the first of those behind its receiver. -/
lemma operand_access_append (receiver : Shape) (f : String) (fields : List String)
    (ds : List Char) :
    (access receiver f).operand ++ (trail fields ++ ds) =
      receiver.operand ++ (trail (f :: fields) ++ ds) := by
  have hoperand : (access receiver f).operand = receiver.operand ++ '.' :: f.toList := rfl
  rw [hoperand, trail, trail, List.flatMap_cons, List.append_assoc, List.append_assoc]

lemma operand_binary_append (op : BinaryOp) (lhs rhs : Shape) (ds : List Char) :
    (binary op lhs rhs).operand ++ ds =
      '(' :: (lhs.operand ++ ' ' :: (op.text.toList ++ ' ' :: (rhs.operand ++ ')' :: ds))) := by
  simp [operand, inOperand, text]

/-- An operand and the accesses behind it are told from what is behind them.  The accesses are
counted apart, because a text gives no sign of where the receiver of the last one ends. -/
lemma operand_append_inj {s s' : Shape} {fields fields' : List String} (h : s.Readable)
    (h' : s'.Readable) (hfields : ∀ f ∈ fields, Word f.toList)
    (hfields' : ∀ f ∈ fields', Word f.toList) (hds : Ends isOperand ds) (hds' : Ends isOperand ds')
    (heq : s.operand ++ (trail fields ++ ds) = s'.operand ++ (trail fields' ++ ds')) :
    s.accesses fields = s'.accesses fields' ∧ ds = ds' := by
  -- The induction moves accesses from the operand to the list until it is no access any more.
  induction s generalizing s' fields fields' ds ds' with
  | access receiver f ih =>
    rw [operand_access_append] at heq
    exact ih h.1 h' (List.forall_mem_cons.mpr ⟨h.2, hfields⟩) hfields' hds hds' heq
  | leaf t =>
    -- An access on the other side only is moved as well; the first operand stays as it is.
    induction s' generalizing fields' with
    | access receiver' f' ih' =>
      rw [operand_access_append] at heq
      exact ih' h'.1 (List.forall_mem_cons.mpr ⟨h'.2, hfields'⟩) heq
    | leaf t' =>
      obtain ⟨htext, htrail⟩ := Token.append_inj h h' (ends_trail fields hds)
        (ends_trail fields' hds') heq
      obtain ⟨rfl, rfl⟩ := trail_append_inj hfields hfields' hds hds' htrail
      rw [String.toList_inj.mp htext]
      exact ⟨rfl, rfl⟩
    -- A word does not begin with a bracket.
    | binary op' lhs' rhs' _ _ => exact absurd heq (Token.append_ne_bracket h)
  | binary op lhs rhs ihl ihr =>
    induction s' generalizing fields' with
    | access receiver' f' ih' =>
      rw [operand_access_append] at heq
      exact ih' h'.1 (List.forall_mem_cons.mpr ⟨h'.2, hfields'⟩) heq
    | leaf t' => exact absurd heq.symm (Token.append_ne_bracket h')
    | binary op' lhs' rhs' _ _ =>
      -- Between the brackets: an operand up to the space, the operator up to the next one, an
      -- operand.
      rw [operand_binary_append, operand_binary_append] at heq
      have hspace (ds : List Char) : Ends isOperand (' ' :: ds) := ends_cons (by decide)
      have hclose (ds : List Char) : Ends isOperand (')' :: ds) := ends_cons (by decide)
      have hnone : ∀ f ∈ ([] : List String), Word f.toList := by simp
      obtain ⟨hlhs, hbehind⟩ :=
        ihl h.1 h'.1 hnone hnone (hspace _) (hspace _) (List.cons.inj heq).2
      obtain ⟨hop, hbehind⟩ := (word_opText op).append_inj (word_opText op')
        (ends_cons (by decide)) (ends_cons (by decide)) (List.cons.inj hbehind).2
      obtain ⟨hrhs, hbehind⟩ :=
        ihr h.2 h'.2 hnone hnone (hclose _) (hclose _) (List.cons.inj hbehind).2
      obtain ⟨rfl, rfl⟩ := trail_append_inj hfields hfields' hds hds' (List.cons.inj hbehind).2
      obtain rfl : lhs = lhs' := hlhs
      obtain rfl : rhs = rhs' := hrhs
      rw [opText_inj hop]
      exact ⟨rfl, rfl⟩

/-- An operand is told from what is behind it, unless that goes on with an operator. -/
lemma operand_inj_of_ends {s s' : Shape} (h : s.Readable) (h' : s'.Readable)
    (hds : Ends isOperand ds) (hds' : Ends isOperand ds')
    (heq : s.operand ++ ds = s'.operand ++ ds') : s = s' ∧ ds = ds' := by
  have hnone : ∀ f ∈ ([] : List String), Word f.toList := by simp
  exact operand_append_inj h h' hnone hnone hds hds' heq

/-- The text of an operator has a space in it outside of brackets, which that of an operand has
not. -/
lemma text_binary_ne_operand {op : BinaryOp} {lhs rhs s : Shape} (h : (binary op lhs rhs).Readable)
    (hs : s.Readable) : (binary op lhs rhs).text ≠ s.operand := by
  intro heq
  rw [← List.append_nil s.operand] at heq
  have hspace (ds : List Char) : Ends isOperand (' ' :: ds) := ends_cons (by decide)
  obtain ⟨-, hnil⟩ := operand_inj_of_ends h.1 hs (hspace _) ends_nil heq
  cases hnil

/-- Operands are told apart by how they are written. -/
lemma operand_inj {s s' : Shape} (h : s.Readable) (h' : s'.Readable)
    (heq : s.operand = s'.operand) : s = s' := by
  have hsame : s.operand ++ [] = s'.operand ++ [] := by rw [heq]
  exact (operand_inj_of_ends h h' ends_nil ends_nil hsame).1

/-- A shape is determined by its text. -/
theorem text_inj {s s' : Shape} (h : s.Readable) (h' : s'.Readable) (heq : s.text = s'.text) :
    s = s' := by
  cases s with
  | binary op lhs rhs =>
    cases s' with
    | binary op' lhs' rhs' =>
      apply operand_inj h h'
      rw [operand, operand, heq, inOperand, inOperand]
    | _ => exact absurd heq (text_binary_ne_operand h h')
  | _ =>
    cases s' with
    | binary op' lhs' rhs' => exact absurd heq.symm (text_binary_ne_operand h' h)
    | _ => exact operand_inj h h' heq

end Shape
end DeclIR.Listing
