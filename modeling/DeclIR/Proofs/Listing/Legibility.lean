import DeclIR.Proofs.Construction.Changes
import DeclIR.Proofs.Listing.Shapes

/-!
# Expressions that can be read back

Where all names are identifiers, what a listing puts for a variable, a literal or an operator is a
token or a word, so that the text of an expression shows its shape.  That goes for expressions whose
names resolve and that neither name fields of other types by their type nor have floating-point
literals, in which points stand (`Names.Plain`).
-/

namespace DeclIR

/-- The name of the declared type that this is, or that this is an array of. -/
def Ty.declaredName? : Ty → Option String
  | .declared _ name => some name
  | .array t => t.declaredName?
  | _ => none

/-- Whether a literal is a floating-point number. -/
def Literal.isFloating : Literal → Bool
  | .float _ | .double _ => true
  | _ => false

namespace Listing

open Text

/-! ## Identifiers -/

/-- Spaces, points, brackets, quote marks and the signs of operators, none of which is in an
identifier. -/
def punctuation : List Char :=
  [' ', '\n', '.', '(', ')', '[', ']', '\x7b', '\x7d', '"', '\'', '=', '+', '-', '*', '/', '<', '>']

/-- The words that code of a body is written with. -/
def reserved : List String := ["final", "if", "else", "return", "this", "true", "false", "null"]

/-- A name without punctuation that does not begin with a digit and is not reserved. -/
def isIdentifier (name : String) : Bool :=
  !reserved.contains name && name.toList.all (!punctuation.contains ·) &&
    name.toList.head?.any (!·.isDigit)

variable {name : String} {c : Char}

section Identifier

variable (h : isIdentifier name)
include h

lemma notMem_reserved : name ∉ reserved := by
  simp only [isIdentifier, Bool.and_eq_true, Bool.not_eq_true', List.contains_eq_mem,
    decide_eq_false_iff_not] at h
  exact h.1.1

/-- No punctuation stands in an identifier. -/
lemma notMem_of_isIdentifier (hc : c ∈ punctuation) : c ∉ name.toList := by
  simp only [isIdentifier, Bool.and_eq_true, List.all_eq_true, Bool.not_eq_true',
    List.contains_eq_mem, decide_eq_false_iff_not] at h
  exact fun hmem => h.1.2 c hmem hc

/-- An identifier begins with a character that is no punctuation. -/
lemma exists_cons_of_isIdentifier : ∃ c rest, name.toList = c :: rest ∧ c ∉ punctuation := by
  cases hname : name.toList with
  | nil => simp [isIdentifier, hname] at h
  | cons c rest =>
    refine ⟨c, rest, rfl, fun hc => notMem_of_isIdentifier h hc ?_⟩
    rw [hname]
    exact List.mem_cons_self

/-- An identifier is a word. -/
lemma word_of_isIdentifier : Word name.toList where
  inner c hc := by
    have hsubset : [' ', '.', ')'] ⊆ punctuation := by decide
    exact isInner_iff.mpr fun hmem => notMem_of_isIdentifier h (hsubset hmem) hc
  opens := by
    obtain ⟨c, rest, hname, hc⟩ := exists_cons_of_isIdentifier h
    have hsubset : ['(', '"', '\''] ⊆ punctuation := by decide
    exact ⟨c, by rw [hname]; rfl, fun hmem => hc (hsubset hmem)⟩

end Identifier

/-- The names that the code of a method can show are identifiers. -/
structure Names.Legible (n : Names) : Prop where
  types : ∀ t ∈ n.program.types, isIdentifier t.name
  fields : ∀ t ∈ n.program.types, ∀ f ∈ t.fields, isIdentifier f.name.text
  locals : ∀ m ∈ n.within, ∀ v ∈ m.locals,
    isIdentifier v.name.text ∧ ∀ name ∈ v.type.declaredName?, isIdentifier name
  parameters : ∀ m ∈ n.within, ∀ v ∈ m.parameters, isIdentifier v.name.text

namespace Names

/-- A method that gives a static field of its type the value of a local variable of the same
name. -/
def shadowingMethod : Method where
  info := .synthetic
  name := "run"
  owner := 0
  isStatic := true
  returnType := .primitive .void
  locals := [⟨.synthetic, .ofChar 'x', .primitive .int, false, none⟩]
  body := some ⟨.synthetic, [.declare .synthetic (.localVar 0),
    .eval .synthetic (.binary .synthetic .assign (.staticField .synthetic ⟨0, 0⟩)
      (.localVar .synthetic 0))]⟩

/-- The type of the method. -/
def shadowedType : DeclaredType :=
  let t := (DeclaredType.new .synthetic 0 "C" .classType none).insertField
    (.new .synthetic (.ofChar 'x') 0 (.primitive .int) true .plain)
  { t with methods := t.methods ++ [shadowingMethod] }

/-- The names in the method. -/
def shadowing : Names := ⟨⟨[shadowedType]⟩, 0, some shadowingMethod⟩

lemma legible_shadowing : shadowing.Legible := by
  refine ⟨?_, ?_, ?_, ?_⟩ <;> simp [shadowing, shadowedType, shadowingMethod, DeclaredType.new,
    DeclaredType.insertField, Field.new, Name.ofChar, Ty.declaredName?] <;> decide

end Names

/-! ## Leaves -/

/-- The characters of a whole number, which may have the sign of a long one at its end. -/
def isWhole (c : Char) : Bool := isNumeral c || c = 'L'

/-- A digit or sign is no punctuation. -/
lemma notMem_of_isWhole (h : isWhole c = true) : c ∉ [' ', '.', ')'] ++ ['(', '"', '\''] := by
  intro hmem
  simp only [List.cons_append, List.nil_append, List.mem_cons, List.not_mem_nil, or_false] at hmem
  rcases hmem with rfl | rfl | rfl | rfl | rfl | rfl <;> revert h <;> decide

/-- Characters that numbers are written with make a word. -/
lemma word_of_forall_isWhole {cs : List Char} (hne : cs ≠ []) (h : ∀ c ∈ cs, isWhole c) :
    Word cs where
  inner c hc := isInner_iff.mpr fun hmem => notMem_of_isWhole (h c hc) (List.mem_append_left _ hmem)
  opens := by
    obtain ⟨c, rest, rfl⟩ := List.exists_cons_of_ne_nil hne
    have hwhole := h c List.mem_cons_self
    exact ⟨c, rfl, fun hmem => notMem_of_isWhole hwhole (List.mem_append_right _ hmem)⟩

/-- The text of a leaf, which is no keyword that begins a statement. -/
inductive LeafText : String → Prop
  | literal {v : Literal} (h : v.isFloating = false) : LeafText v.text
  | name {name : String} (h : isIdentifier name) : LeafText name
  | self : LeafText "this"

lemma isWhole_of_mem_int {n : Int} (h : c ∈ (toString n).toList) : isWhole c = true := by
  rw [isWhole, isNumeral_of_mem_int h, Bool.true_or]

lemma isWhole_of_mem_long {n : Int} (h : c ∈ (toString n ++ "L").toList) : isWhole c = true := by
  rw [String.toList_append, List.mem_append] at h
  rcases h with h | h
  · exact isWhole_of_mem_int h
  · rw [List.mem_singleton.mp h]
    decide

/-- A literal is written as one token, unless it is a floating-point number. -/
lemma token_literal {v : Literal} (h : v.isFloating = false) : Token v.text.toList := by
  cases v with
  | bool b => cases b <;> exact .word (word_of_isWord (by decide))
  | char c =>
    rw [Literal.text, Quoted.char, String.toList_ofList]
    exact .quoted (.inr rfl) (Quoted.escaped_encodeChar (.inr rfl) c)
  | int n =>
    exact .word (word_of_forall_isWhole (toList_int_ne_nil _) fun c => isWhole_of_mem_int)
  | long n =>
    have hne : (toString n.toInt ++ "L").toList ≠ [] := by simp
    exact .word (word_of_forall_isWhole hne fun c => isWhole_of_mem_long)
  | float word => cases h
  | double word => cases h
  | string s =>
    rw [Literal.text, Quoted.string, String.toList_ofList]
    exact .quoted (.inl rfl) (Quoted.escaped_encode (.inl rfl) s.toList)
  | null => exact .word (word_of_isWord (by decide))

/-- No literal reads like the keyword that ends a method. -/
lemma literal_ne_return {v : Literal} (h : v.isFloating = false) : v.text ≠ "return" := by
  have hfirst : 'r' ∈ "return".toList := by decide
  intro heq
  cases v with
  | bool b => cases b <;> revert heq <;> decide
  | char c =>
    -- Literals in quotes begin with the mark, and the numbers have no letter of the word.
    have hquote := congrArg String.toList heq
    rw [Literal.text, Quoted.char, String.toList_ofList] at hquote
    exact absurd (List.cons.inj hquote).1 (by decide)
  | int n =>
    rw [← heq] at hfirst
    exact absurd (isWhole_of_mem_int hfirst) (by decide)
  | long n =>
    rw [← heq] at hfirst
    exact absurd (isWhole_of_mem_long hfirst) (by decide)
  | float word => cases h
  | double word => cases h
  | string s =>
    have hquote := congrArg String.toList heq
    rw [Literal.text, Quoted.string, String.toList_ofList] at hquote
    exact absurd (List.cons.inj hquote).1 (by decide)
  | null => revert heq; decide

lemma LeafText.token {t : String} (h : LeafText t) : Token t.toList := by
  cases h with
  | literal h => exact token_literal h
  | name h => exact .word (word_of_isIdentifier h)
  | self => exact .word (word_of_isWord (by decide))

/-- No leaf reads like the keyword that ends a method. -/
lemma LeafText.ne_return {t : String} (h : LeafText t) : t ≠ "return" := by
  cases h with
  | literal h => exact literal_ne_return h
  | name h => exact fun heq => notMem_reserved h (by rw [heq]; decide)
  | self => decide

/-! ## Expressions -/

namespace Names

variable {n : Names}

/-- What the text of an expression shows of it. -/
def shape (n : Names) : Expr → Shape
  | .instanceField info id receiver =>
    match n.program.field? id with
    | some f => .access (n.shape receiver) f.name.text
    | none => .leaf (n.expr (.instanceField info id receiver))
  | .binary _ op lhs rhs => .binary op (n.shape lhs) (n.shape rhs)
  | e => .leaf (n.expr e)

/-- An operand is written as its shape says, with brackets or without. -/
lemma toList_operand (n : Names) (e : Expr) (text : String) :
    (operand e text).toList = (n.shape e).inOperand text.toList := by
  cases e with
  | binary i op lhs rhs => simp [operand, shape, Shape.inOperand]
  | instanceField i id receiver =>
    rw [operand, shape]
    · cases n.program.field? id <;> rfl
    · simp
  | _ => rfl

/-- The text of an expression is that of its shape. -/
lemma toList_expr (n : Names) (e : Expr) : (n.expr e).toList = (n.shape e).text := by
  induction e with
  | instanceField i id receiver ih =>
    rw [shape]
    cases hf : n.program.field? id with
    | none => rfl
    | some f =>
      have hpoint : ".".toList = ['.'] := rfl
      simp only [expr, hf, String.toList_append, n.toList_operand, ih, Shape.text, hpoint,
        List.append_assoc, List.singleton_append]
  | binary i op lhs rhs ihl ihr =>
    have hspace : " ".toList = [' '] := rfl
    simp only [expr, String.toList_append, n.toList_operand, ihl, ihr, shape, Shape.text, hspace,
      List.append_assoc, List.cons_append, List.nil_append]
  | _ => rfl

/-- An expression without floating-point literals whose names resolve, and in which a field that is
read through its type is one of the type shown. -/
def Plain (n : Names) : Expr → Prop
  | .literal _ v => v.isFloating = false
  | .staticField _ id => id.owner = n.owner ∧ (n.program.field? id).isSome
  | .instanceField _ id receiver => (n.program.field? id).isSome ∧ n.Plain receiver
  | .localVar _ i => (n.localVar? i).isSome
  | .parameter _ i => (n.parameter? i).isSome
  | .self _ _ => True
  | .binary _ _ lhs rhs => n.Plain lhs ∧ n.Plain rhs

section Legible

variable (h : n.Legible)
include h

/-- In a legible program the fields have identifiers for names. -/
lemma Legible.isIdentifier_field {id : FieldId} {f : Field} (hf : n.program.field? id = some f) :
    isIdentifier f.name.text := by
  obtain ⟨t, ht, hf⟩ := Option.bind_eq_some_iff.mp hf
  obtain ⟨-, hf⟩ := DeclaredType.field?_eq_some_iff.mp hf
  exact h.fields t (List.mem_of_getElem? ht) f (List.mem_of_getElem? hf)

lemma Legible.isIdentifier_localVar {i : Nat} {v : Variable} (hv : n.localVar? i = some v) :
    isIdentifier v.name.text := by
  obtain ⟨m, hm, hv⟩ := Option.bind_eq_some_iff.mp hv
  exact (h.locals m hm v (List.mem_of_getElem? hv)).1

lemma Legible.isIdentifier_parameter {i : Nat} {v : Variable} (hv : n.parameter? i = some v) :
    isIdentifier v.name.text := by
  obtain ⟨m, hm, hv⟩ := Option.bind_eq_some_iff.mp hv
  exact h.parameters m hm v (List.mem_of_getElem? hv)

/-- The text of a leaf is an identifier, a literal or a keyword for the receiver. -/
lemma leafText_of_shape {e : Expr} {t : String} (he : n.Plain e) (hshape : n.shape e = .leaf t) :
    LeafText t := by
  cases e with
  | literal i v =>
    cases hshape
    exact .literal he
  | staticField i id =>
    cases hshape
    -- A field of another type is a leaf only if both names are there to be written.
    obtain ⟨howner, hsome⟩ := he
    obtain ⟨f, hf⟩ := Option.isSome_iff_exists.mp hsome
    simp only [expr, hf, staticField, if_pos howner]
    exact .name (h.isIdentifier_field hf)
  | instanceField i id receiver =>
    obtain ⟨f, hf⟩ := Option.isSome_iff_exists.mp he.1
    rw [shape, hf] at hshape
    cases hshape
  | localVar i k =>
    cases hshape
    obtain ⟨v, hv⟩ := Option.isSome_iff_exists.mp he
    simp only [expr, hv]
    exact .name (h.isIdentifier_localVar hv)
  | parameter i k =>
    cases hshape
    obtain ⟨v, hv⟩ := Option.isSome_iff_exists.mp he
    simp only [expr, hv]
    exact .name (h.isIdentifier_parameter hv)
  | self i id =>
    cases hshape
    exact .self
  | binary i op lhs rhs => cases hshape

/-- A plain expression of a legible program has a shape that can be read back. -/
lemma readable_shape {e : Expr} (he : n.Plain e) : (n.shape e).Readable := by
  induction e with
  | instanceField i id receiver ih =>
    obtain ⟨f, hf⟩ := Option.isSome_iff_exists.mp he.1
    rw [shape, hf]
    exact ⟨ih he.2, word_of_isIdentifier (h.isIdentifier_field hf)⟩
  | binary i op lhs rhs ihl ihr => exact ⟨ihl he.1, ihr he.2⟩
  | _ => exact (leafText_of_shape h he rfl).token

/-- Expressions with the same text have the same shape. -/
theorem shape_eq_of_expr_eq {e e' : Expr} (he : n.Plain e) (he' : n.Plain e')
    (heq : n.expr e = n.expr e') : n.shape e = n.shape e' := by
  apply Shape.text_inj (readable_shape h he) (readable_shape h he')
  rw [← toList_expr, ← toList_expr, heq]

end Legible

end Names
end Listing
end DeclIR
