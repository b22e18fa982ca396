import DeclIR.Proofs.Code.Walked
import DeclIR.Proofs.Listing.Legibility

/-!
# Lines of a body

A text is cut into its lines in one way, as no line has a line feed in it or begins with a space of
its own (`render_inj`).  The first line of a statement shows of which kind it is: an expression
statement never looks like a declaration or like a return (`Opening.text_inj`).
-/

namespace DeclIR.Listing

open Text

/-! ## Lines of a text -/

/-- A line whose text neither has a line feed in it nor begins with a space. -/
structure Line.Proper (l : Line) : Prop where
  feed : '\n' ∉ l.text.toList
  opens : Ends (· = ' ') l.text.toList

/-- A line is written by its indent, its text and a line feed. -/
lemma toList_renderLine (l : Line) :
    l.render.toList = List.replicate (4 * l.indent) ' ' ++ l.text.toList ++ ['\n'] := by
  have hfeed : "\n".toList = ['\n'] := rfl
  simp only [Line.render, repeated, String.toList_append, String.toList_ofList, hfeed]

lemma toList_render (ls : List Line) : (render ls).toList = ls.flatMap (·.render.toList) := by
  rw [render, String.toList_join, List.flatMap_map]

/-- A line is told from the lines behind it. -/
lemma Line.Proper.append_inj {l l' : Line} {ds ds' : List Char} (h : l.Proper) (h' : l'.Proper)
    (heq : l.render.toList ++ ds = l'.render.toList ++ ds') : l = l' ∧ ds = ds' := by
  obtain ⟨indent, text⟩ := l
  obtain ⟨indent', text'⟩ := l'
  rw [toList_renderLine, toList_renderLine, List.append_assoc _ ['\n'],
    List.append_assoc _ ['\n']] at heq
  -- Neither the indentation nor the text holds a line feed, so the first one ends the line.
  have hinside (n : Nat) {cs : List Char} (hcs : '\n' ∉ cs) :
      ∀ c ∈ List.replicate n ' ' ++ cs, decide (c ≠ '\n') = true := by
    intro c hc
    rw [decide_eq_true_eq]
    rintro rfl
    rcases List.mem_append.mp hc with hc | hc
    · exact absurd (List.eq_of_mem_replicate hc) (by decide)
    · exact hcs hc
  have hend (cs : List Char) : Ends (· ≠ '\n') (['\n'] ++ cs) := ends_cons (by decide)
  have hspaces (n : Nat) : ∀ c ∈ List.replicate n ' ', decide (c = ' ') = true := by
    intro c hc
    rw [List.eq_of_mem_replicate hc]
    rfl
  obtain ⟨hline, hbehind⟩ := append_inj_of_ends (hinside _ h.feed) (hinside _ h'.feed) (hend ds)
    (hend ds') heq
  -- The text does not begin with a space, so the spaces in front of it are counted.
  obtain ⟨hindent, htext⟩ := append_inj_of_ends (hspaces _) (hspaces _) h.opens h'.opens hline
  have hlength := congrArg List.length hindent
  simp only [List.length_replicate] at hlength
  obtain rfl : indent = indent' := by omega
  obtain rfl : text = text' := String.toList_inj.mp htext
  exact ⟨rfl, (List.cons.inj hbehind).2⟩

/-- Lines are determined by the text they make up. -/
theorem render_inj {ls ls' : List Line} (h : ∀ l ∈ ls, l.Proper) (h' : ∀ l ∈ ls', l.Proper)
    (heq : render ls = render ls') : ls = ls' := by
  replace heq := congrArg String.toList heq
  rw [toList_render, toList_render] at heq
  induction ls generalizing ls' with
  | nil =>
    cases ls' with
    | nil => rfl
    | cons l' rest' => simp [toList_renderLine] at heq
  | cons l rest ih =>
    cases ls' with
    | nil => simp [toList_renderLine] at heq
    | cons l' rest' =>
      obtain ⟨hl, hrest⟩ := List.forall_mem_cons.mp h
      obtain ⟨hl', hrest'⟩ := List.forall_mem_cons.mp h'
      rw [List.flatMap_cons, List.flatMap_cons] at heq
      obtain ⟨rfl, hbehind⟩ := hl.append_inj hl' heq
      rw [ih hrest hrest' hbehind]

/-! ## First lines of statements -/

/-- A token does not begin with a blank. -/
lemma Token.ends_append {cs : List Char} (h : Token cs) (ds : List Char) :
    Ends (· = ' ') (cs ++ ds) := by
  obtain ⟨c, rest, rfl, -, hinner⟩ := h.exists_cons
  apply ends_cons
  rw [decide_eq_false_iff_not]
  rintro rfl
  exact absurd hinner (by decide)

namespace Shape

/-- The operand that the text of a shape begins with. -/
def first : Shape → Shape
  | binary _ lhs _ => lhs
  | s => s

/-- The leftmost leaf of a shape can be read back if the shape can. -/
lemma Readable.first {s : Shape} (h : s.Readable) : s.first.Readable := by
  cases s with
  | binary op lhs rhs => exact h.1
  | _ => exact h

/-- Behind the first operand there is nothing, or an operator after a space. -/
lemma exists_text_eq (s : Shape) :
    ∃ ds, s.text = s.first.operand ++ ds ∧
      (ds = [] ∨ ∃ (op : BinaryOp) (rest : List Char), ds = ' ' :: (op.text.toList ++ rest)) := by
  cases s with
  | binary op lhs rhs => exact ⟨_, rfl, .inr ⟨op, _, rfl⟩⟩
  | _ => exact ⟨[], (List.append_nil _).symm, .inl rfl⟩

/-- No operand begins with a space. -/
lemma Readable.ends_operand {s : Shape} (h : s.Readable) (ds : List Char) :
    Ends (· = ' ') (s.operand ++ ds) := by
  induction s generalizing ds with
  | leaf t => exact Token.ends_append h ds
  | access receiver field ih =>
    show Ends _ (receiver.operand ++ '.' :: field.toList ++ ds)
    rw [List.append_assoc]
    exact ih h.1 _
  | binary op lhs rhs => exact ends_cons (by decide)

/-- The text of a shape that can be read back does not begin with a blank. -/
lemma Readable.ends_text {s : Shape} (h : s.Readable) (ds : List Char) :
    Ends (· = ' ') (s.text ++ ds) := by
  obtain ⟨ds', htext, -⟩ := s.exists_text_eq
  rw [htext, List.append_assoc]
  exact h.first.ends_operand _

/-- An operand that is a word, if the text begins with the word. -/
lemma first_eq_of_text_eq {s : Shape} {t : String} {ds : List Char} (h : s.Readable)
    (ht : Word t.toList) (hds : Ends isOperand ds) (heq : s.text = t.toList ++ ds) :
    s.first = leaf t ∧
      (ds = [] ∨ ∃ (op : BinaryOp) (rest : List Char), ds = ' ' :: (op.text.toList ++ rest)) := by
  obtain ⟨ds', htext, hbehind⟩ := s.exists_text_eq
  have hends : Ends isOperand ds' := by
    rcases hbehind with rfl | ⟨op, rest, rfl⟩
    · exact ends_nil
    · exact ends_cons (by decide)
  have hword : (leaf t).Readable := Token.word ht
  obtain ⟨hfirst, rfl⟩ := operand_inj_of_ends h.first hword hends hds (htext.symm.trans heq)
  exact ⟨hfirst, hbehind⟩

end Shape

/-- A text that begins like a declaration: a word and a space, and then no operator. -/
def Declares (cs : List Char) : Prop :=
  ∃ (t : String) (c : Char) (rest : List Char), cs = t.toList ++ ' ' :: c :: rest ∧
    Word t.toList ∧ t ≠ "return" ∧ c ∉ ['=', '+', '-', '*', '<']

/-- No expression reads like a declaration. -/
lemma Shape.text_ne_of_declares {s : Shape} {cs : List Char} (h : s.Readable)
    (hcs : Declares cs) : s.text ≠ cs := by
  rintro rfl
  obtain ⟨t, c, rest, heq, ht, -, hc⟩ := hcs
  obtain ⟨-, hbehind⟩ := first_eq_of_text_eq h ht (ends_cons (by decide)) heq
  rcases hbehind with hnil | ⟨op, rest', hop⟩
  · cases hnil
  · have hsign := (List.cons.inj hop).2
    cases op <;> exact hc (by rw [(List.cons.inj hsign).1]; decide)

/-- What the first line of a statement shows. -/
inductive Opening where
  | declare (text : List Char)
  | eval (expr : Shape)
  | ret (value : Option Shape)
  | branch (cond : Shape)
  | block

namespace Opening

/-- The text behind `return`. -/
def returned : Option Shape → List Char
  | none => []
  | some e => ' ' :: e.text

/-- The text of a first line before the sign at its end. -/
def body : Opening → List Char
  | declare cs => cs
  | eval e => e.text
  | ret value => "return".toList ++ returned value
  | branch cond => "if (".toList ++ (cond.text ++ [')', ' '])
  | block => []

@[simp]
lemma body_ret (value : Option Shape) :
    body (ret value) = "return".toList ++ returned value := rfl

@[simp]
lemma body_branch (cond : Shape) :
    body (branch cond) = "if (".toList ++ (cond.text ++ [')', ' ']) := rfl

@[simp]
lemma body_block : body block = [] := rfl

/-- The sign at the end of a first line. -/
def sign : Opening → Char
  | declare _ | eval _ | ret _ => ';'
  | branch _ | block => '\x7b'

/-- The sign at the end of an opening is no line feed. -/
lemma sign_ne_feed (o : Opening) : o.sign ≠ '\n' := by
  cases o <;> simp [sign]

/-- The text of a first line. -/
def text (o : Opening) : List Char := o.body ++ [o.sign]

/-- Declarations look like ones, and no expression begins with `return`. -/
def Readable : Opening → Prop
  | declare cs => Declares cs
  | eval e => e.Readable ∧ e.first ≠ .leaf "return"
  | ret value => ∀ e ∈ value, e.Readable
  | branch cond => cond.Readable
  | block => True

lemma ends_returned {p : Char → Bool} (h : p ' ' = false) (value : Option Shape) :
    Ends p (returned value) := by
  cases value with
  | none => exact ends_nil
  | some e => exact ends_cons h

lemma word_return : Word "return".toList := word_of_isWord (by decide)

/-- A return statement does not read like a declaration. -/
lemma return_ne_of_declares {cs : List Char} (hcs : Declares cs) (value : Option Shape) :
    "return".toList ++ returned value ≠ cs := by
  rintro rfl
  obtain ⟨t, c, rest, heq, ht, hne, -⟩ := hcs
  obtain ⟨htext, -⟩ := word_return.append_inj ht (ends_returned (by decide) value)
    (ends_cons (by decide)) heq
  exact hne (String.toList_inj.mp htext).symm

/-- An expression reads like a return statement only if it begins with the keyword. -/
lemma text_ne_return {e : Shape} (h : e.Readable) (hfirst : e.first ≠ .leaf "return")
    (value : Option Shape) : e.text ≠ "return".toList ++ returned value := fun heq =>
  hfirst (Shape.first_eq_of_text_eq h word_return (ends_returned (by decide) value) heq).1

/-- The value that is returned can be read off the text behind the keyword. -/
lemma returned_inj {value value' : Option Shape} (h : ∀ e ∈ value, e.Readable)
    (h' : ∀ e ∈ value', e.Readable) (heq : returned value = returned value') : value = value' := by
  cases value with
  | none =>
    cases value' with
    | none => rfl
    | some e' => cases heq
  | some e =>
    cases value' with
    | none => cases heq
    | some e' => rw [Shape.text_inj (h e rfl) (h' e' rfl) (List.cons.inj heq).2]

/-- No first line begins with a space of its own. -/
lemma Readable.ends_text {o : Opening} (h : o.Readable) : Ends (· = ' ') o.text := by
  cases o with
  | declare cs =>
    obtain ⟨t, c, rest, rfl, ht, -, -⟩ := h
    have htext : text (declare (t.toList ++ ' ' :: c :: rest)) =
        t.toList ++ ' ' :: c :: (rest ++ [';']) := List.append_assoc ..
    rw [htext]
    exact (Token.word ht).ends_append _
  | eval e => exact h.1.ends_text _
  | ret value => exact ends_cons (by decide)
  | branch cond => exact ends_cons (by decide)
  | block => exact ends_cons (by decide)

/-- The first line of a statement shows of which kind it is and of what. -/
theorem text_inj {o o' : Opening} (h : o.Readable) (h' : o'.Readable) (heq : o.text = o'.text) :
    o = o' := by
  -- Every opening ends in one character, a semicolon or a brace, so these agree and can be dropped.
  obtain ⟨hbody, hsign⟩ := List.append_inj' heq rfl
  cases o with
  | declare cs =>
    cases o' with
    | declare cs' =>
      obtain rfl : cs = cs' := hbody
      rfl
    -- Behind the first word of a declaration stands no operator, but in an expression one does.
    | eval e' => exact absurd hbody.symm (Shape.text_ne_of_declares h'.1 h)
    | ret value' => exact absurd hbody.symm (return_ne_of_declares h value')
    | _ => simp [sign] at hsign
  | eval e =>
    cases o' with
    | declare cs' => exact absurd hbody (Shape.text_ne_of_declares h.1 h')
    | eval e' => rw [Shape.text_inj h.1 h'.1 hbody]
    | ret value' => exact absurd hbody (text_ne_return h.1 h.2 value')
    | _ => simp [sign] at hsign
  | ret value =>
    cases o' with
    | declare cs' => exact absurd hbody (return_ne_of_declares h' value)
    | eval e' => exact absurd hbody.symm (text_ne_return h'.1 h'.2 value)
    | ret value' => rw [returned_inj h h' (List.append_cancel_left hbody)]
    | _ => simp [sign] at hsign
  | branch cond =>
    cases o' with
    | branch cond' =>
      rw [Shape.text_inj h h' (List.append_cancel_right (List.append_cancel_left hbody))]
    | block => simp at hbody
    | _ => simp [sign] at hsign
  | block =>
    cases o' with
    | branch cond' => simp at hbody
    | block => rfl
    | _ => simp [sign] at hsign

end Opening

/-! ## Texts on one line -/

/-- A text without a line feed in it. -/
def OneLine (t : String) : Prop := '\n' ∉ t.toList

instance (t : String) : Decidable (OneLine t) := inferInstanceAs (Decidable ('\n' ∉ t.toList))

/-- Texts on one line make a text on one line. -/
lemma OneLine.append {s t : String} (hs : OneLine s) (ht : OneLine t) : OneLine (s ++ t) := by
  rw [OneLine, String.toList_append, List.mem_append, not_or]
  exact ⟨hs, ht⟩

lemma oneLine_of_isIdentifier {name : String} (h : isIdentifier name) : OneLine name :=
  notMem_of_isIdentifier h (by decide)

lemma oneLine_nat (k : Nat) : OneLine (toString k) := fun h =>
  absurd (isNumeral_of_mem_nat h) (by decide)

lemma oneLine_int (k : Int) : OneLine (toString k) := fun h =>
  absurd (isNumeral_of_mem_int h) (by decide)

/-- Literals are written on one line. -/
lemma oneLine_literal (v : Literal) : OneLine v.text := by
  have hfloat (f : Decimal.BinaryFormat) (word : Nat) :
      OneLine (Literal.floatLayout.write f word) :=
    Decimal.Layout.feed_notMem_write (by decide) (by decide) f word
  cases v with
  | bool b => cases b <;> decide
  -- Line feeds are escaped inside of quotes, so that there is none in a quoted text.
  | char c =>
    rw [Literal.text, OneLine, Quoted.char, String.toList_ofList]
    have hinside := Quoted.feed_notMem_encodeChar (.inr rfl) c
    simp [hinside]
  | int k => exact oneLine_int k.toInt
  | long k => exact (oneLine_int k.toInt).append (by decide)
  | float word => exact (hfloat _ _).append (by decide)
  | double word => exact hfloat _ _
  | string s =>
    rw [Literal.text, OneLine, Quoted.string, String.toList_ofList]
    have hinside := Quoted.feed_notMem_encode (.inl rfl) s.toList
    simp [hinside]
  | null => decide

lemma oneLine_comment {t : String} (h : OneLine t) : OneLine (comment t) :=
  OneLine.append (.append (by decide) h) (by decide)

lemma oneLine_slot (slot : VarSlot) : OneLine slot.text := by
  cases slot with
  | field id =>
    have hbetween : OneLine " of type #" := by decide
    exact ((OneLine.append (by decide) (oneLine_nat _)).append hbetween).append
      (oneLine_nat _)
  | localVar i => exact .append (by decide) (oneLine_nat _)

/-- Operands are written on one line if their texts are. -/
lemma oneLine_operand {t : String} (e : Expr) (h : OneLine t) : OneLine (operand e t) := by
  cases e with
  | binary i op lhs rhs => exact ((OneLine.append (by decide) h).append (by decide))
  | _ => exact h

namespace Names

variable {n : Names}

/-- The text of an expression stands on one line, also if there are names in it that do not
resolve. -/
lemma Legible.oneLine_expr (h : n.Legible) (e : Expr) : OneLine (n.expr e) := by
  induction e with
  | literal i v => exact oneLine_literal v
  | staticField i id =>
    rw [expr]
    -- A name that does not resolve is written as a comment about its slot.
    cases hf : n.program.field? id with
    | none => exact oneLine_comment (oneLine_slot _)
    | some f =>
      have hname := oneLine_of_isIdentifier (h.isIdentifier_field hf)
      show OneLine (n.staticField id f.name.text)
      rw [staticField]
      split
      · exact hname
      · cases ht : n.program.type? id.owner with
        | none => exact hname
        | some t =>
          have htype := oneLine_of_isIdentifier (h.types t (List.mem_of_getElem? ht))
          exact (htype.append (by decide)).append hname
  | instanceField i id receiver ih =>
    rw [expr]
    cases hf : n.program.field? id with
    | none => exact oneLine_comment (oneLine_slot _)
    | some f =>
      have hname := oneLine_of_isIdentifier (h.isIdentifier_field hf)
      exact ((oneLine_operand receiver ih).append (by decide)).append hname
  | localVar i k =>
    rw [expr]
    cases hv : n.localVar? k with
    | none => exact oneLine_comment (.append (by decide) (oneLine_nat k))
    | some v => exact oneLine_of_isIdentifier (h.isIdentifier_localVar hv)
  | parameter i k =>
    rw [expr]
    cases hv : n.parameter? k with
    | none => exact oneLine_comment (.append (by decide) (oneLine_nat k))
    | some v => exact oneLine_of_isIdentifier (h.isIdentifier_parameter hv)
  | self i id =>
    show OneLine "this"
    decide
  | binary i op lhs rhs ihl ihr =>
    have hop : OneLine op.text := by cases op <;> decide
    have hspace : OneLine " " := by decide
    exact ((((oneLine_operand lhs ihl).append hspace).append hop).append hspace).append
      (oneLine_operand rhs ihr)

end Names

/-! ## Declarations -/

/-- What stands for a name or for a type in a declaration. -/
structure Label (t : String) : Prop where
  inner : ∀ c ∈ t.toList, isInner c
  oneLine : OneLine t
  opens : ∃ c ∈ t.toList.head?, c ∉ punctuation
  ne_return : t ≠ "return"

/-- Whether a text is a label. -/
def isLabel (t : String) : Bool :=
  t.toList.all isInner && !t.toList.contains '\n' && t.toList.head?.any (!punctuation.contains ·) &&
    t ≠ "return"

lemma label_of_isLabel {t : String} (h : isLabel t = true) : Label t := by
  simp only [isLabel, Bool.and_eq_true, List.all_eq_true, Option.any_eq_true, Bool.not_eq_true',
    List.contains_eq_mem, decide_eq_false_iff_not, decide_eq_true_eq] at h
  obtain ⟨⟨⟨hinner, honeLine⟩, c, hc, hopens⟩, hne⟩ := h
  exact ⟨hinner, honeLine, ⟨c, hc, hopens⟩, hne⟩

/-- A label begins with a character that is no punctuation. -/
lemma Label.exists_cons {t : String} (h : Label t) :
    ∃ c rest, t.toList = c :: rest ∧ c ∉ punctuation := by
  obtain ⟨c, hc, hopens⟩ := h.opens
  obtain ⟨rest, ht⟩ := List.head?_eq_some_iff.mp hc
  exact ⟨c, rest, ht, hopens⟩

lemma label_of_isIdentifier {name : String} (h : isIdentifier name) : Label name where
  inner := (word_of_isIdentifier h).inner
  oneLine := oneLine_of_isIdentifier h
  opens := by
    obtain ⟨c, rest, hname, hc⟩ := exists_cons_of_isIdentifier h
    exact ⟨c, by rw [hname]; rfl, hc⟩
  ne_return heq := notMem_reserved h (by rw [heq]; decide)

/-- The name of a type is a label if that of its declaration is an identifier. -/
lemma label_type {ty : Ty} (h : ∀ name ∈ ty.declaredName?, isIdentifier name) : Label ty.text := by
  induction ty with
  | primitive p => cases p <;> exact label_of_isLabel (by decide)
  | string => exact label_of_isLabel (by decide)
  | null => exact label_of_isLabel (by decide)
  | declared id name => exact label_of_isIdentifier (h name rfl)
  | array t ih =>
    obtain ⟨hinner, honeLine, hopens, -⟩ := ih h
    have htext : (Ty.array t).text.toList = t.text.toList ++ ['[', ']'] := by
      rw [Ty.text, String.toList_append]
      rfl
    refine ⟨fun c hc => ?_, honeLine.append (by decide), ?_, fun heq => ?_⟩
    · rw [htext, List.mem_append] at hc
      rcases hc with hc | hc
      · exact hinner c hc
      · simp only [List.mem_cons, List.not_mem_nil, or_false] at hc
        rcases hc with rfl | rfl <;> decide
    · obtain ⟨c, hc, hnot⟩ := hopens
      refine ⟨c, ?_, hnot⟩
      obtain ⟨rest, ht⟩ := List.head?_eq_some_iff.mp hc
      rw [htext, ht]
      rfl
    · have hbracket : '[' ∈ (Ty.array t).text.toList := by simp [htext]
      rw [heq] at hbracket
      revert hbracket
      decide

/-- A label before another one, and a text behind both. -/
lemma declares_of_labels {s t : String} (hs : Label s) (ht : Label t) (rest : List Char) :
    Declares (s.toList ++ ' ' :: (t.toList ++ rest)) := by
  obtain ⟨c, rest', hcons, hc⟩ := ht.exists_cons
  have hword : Word s.toList := by
    obtain ⟨c', hc', hopens⟩ := hs.opens
    have hsubset : ['(', '"', '\''] ⊆ punctuation := by decide
    exact ⟨hs.inner, c', hc', fun hmem => hopens (hsubset hmem)⟩
  have hsubset : ['=', '+', '-', '*', '<'] ⊆ punctuation := by decide
  refine ⟨s, c, rest' ++ rest, ?_, hword, hs.ne_return, fun hmem => hc (hsubset hmem)⟩
  rw [hcons, List.cons_append]

lemma label_final : Label "final" := label_of_isLabel (by decide)

/-- A comment in the place of an anchor reads like a declaration. -/
lemma declares_comment (slot : VarSlot) : Declares (comment slot.text).toList := by
  have hopens : ∃ c ∈ slot.text.toList.head?, c ∉ ['=', '+', '-', '*', '<'] := by
    cases slot with
    | field id => exact ⟨'f', by simp [VarSlot.text], by decide⟩
    | localVar i => exact ⟨'l', by simp [VarSlot.text], by decide⟩
  obtain ⟨c, hc, hsign⟩ := hopens
  obtain ⟨rest, hslot⟩ := List.head?_eq_some_iff.mp hc
  refine ⟨"/*", c, rest ++ " */".toList, ?_, word_of_isWord (by decide), by decide, hsign⟩
  simp [comment, hslot]

namespace Names

variable {n : Names}

/-- The declaration of a variable begins with its type and its name. -/
lemma Legible.exists_declaration_eq (h : n.Legible) (v : Variable) :
    ∃ tail, n.declaration v = v.type.text ++ " " ++ v.name.text ++ tail ++ ";" ∧ OneLine tail := by
  rw [declaration]
  cases hv : v.initializer? with
  | none => exact ⟨"", rfl, by decide⟩
  | some e => exact ⟨_, rfl, OneLine.append (by decide) (h.oneLine_expr e)⟩

/-- A declaration is written on one line, ends with a semicolon and reads like a declaration. -/
lemma Legible.exists_modified_eq (h : n.Legible) {v : Variable} (hname : Label v.name.text)
    (htype : Label v.type.text) :
    ∃ t, finalModifier v.isFinal ++ n.declaration v = t ++ ";" ∧ Declares t.toList ∧
      OneLine t := by
  obtain ⟨tail, hdeclaration, htail⟩ := h.exists_declaration_eq v
  have hline : OneLine (v.type.text ++ " " ++ v.name.text ++ tail) :=
    ((htype.oneLine.append (by decide)).append hname.oneLine).append htail
  have hspace : " ".toList = [' '] := rfl
  rw [hdeclaration]
  cases v.isFinal with
  | false =>
    refine ⟨v.type.text ++ " " ++ v.name.text ++ tail, String.empty_append, ?_, hline⟩
    have hdeclares := declares_of_labels htype hname tail.toList
    simpa [hspace] using hdeclares
  | true =>
    refine ⟨"final " ++ (v.type.text ++ " " ++ v.name.text ++ tail), String.append_assoc.symm, ?_,
      OneLine.append (by decide) hline⟩
    have hdeclares := declares_of_labels label_final htype (" " ++ v.name.text ++ tail).toList
    have hfinal : "final ".toList = "final".toList ++ [' '] := rfl
    simpa [hspace, hfinal] using hdeclares

/-- An anchor has a declaration or a comment on its line. -/
lemma Legible.exists_anchor_eq (h : n.Legible) (slot : VarSlot) :
    ∃ t, n.anchor slot = t ++ ";" ∧ Declares t.toList ∧ OneLine t := by
  cases slot with
  | field id => exact ⟨_, rfl, declares_comment _, oneLine_comment (oneLine_slot _)⟩
  | localVar i =>
    rw [anchor]
    cases hv : n.localVar? i with
    | none => exact ⟨_, rfl, declares_comment _, oneLine_comment (oneLine_slot _)⟩
    | some v =>
      obtain ⟨m, hm, hv⟩ := Option.bind_eq_some_iff.mp hv
      obtain ⟨hname, htype⟩ := h.locals m hm v (List.mem_of_getElem? hv)
      exact h.exists_modified_eq (label_of_isIdentifier hname) (label_type htype)

end Names
end DeclIR.Listing
