import DeclIR.Listing
import Mathlib.Tactic.Lemma

/-!
# What a listing depends on

A listing shows neither where code comes from nor what is in an initializer, and of a parameter it
shows the head only.  A program without all that (`Program.shown`) has the same listings
(`Program.list_shown`).  So programs that differ in nothing else are listed alike
(`Program.listings_eq_of_shown_eq`).
-/

namespace DeclIR

/-! ## Code without provenance -/

/-- The expression without the provenance of its nodes. -/
def Expr.bare : Expr → Expr
  | literal _ v => literal .synthetic v
  | staticField _ id => staticField .synthetic id
  | instanceField _ id receiver => instanceField .synthetic id receiver.bare
  | localVar _ i => localVar .synthetic i
  | parameter _ i => parameter .synthetic i
  | self _ id => self .synthetic id
  | binary _ op lhs rhs => binary .synthetic op lhs.bare rhs.bare

mutual

/-- The statement without the provenance of its nodes. -/
def Stmt.bare : Stmt → Stmt
  | .declare _ slot => .declare .synthetic slot
  | .eval _ e => .eval .synthetic e.bare
  | .ret _ value => .ret .synthetic (value.map Expr.bare)
  | .branch _ cond onTrue onFalse =>
    .branch .synthetic cond.bare (Block.bare onTrue) (elseBare onFalse)
  | .block b => .block (Block.bare b)

/-- The block without the provenance of its nodes. -/
def Block.bare : BlockOf Stmt → BlockOf Stmt
  | ⟨_, body⟩ => ⟨.synthetic, stmtsBare body⟩

/-- The alternative, if there is one, without the provenance of its nodes. -/
def elseBare : Option (BlockOf Stmt) → Option (BlockOf Stmt)
  | none => none
  | some b => some (Block.bare b)

/-- The statements without the provenance of their nodes. -/
def stmtsBare : List Stmt → List Stmt
  | [] => []
  | s :: rest => s.bare :: stmtsBare rest

end

/-! ## Declarations -/

/-- The annotation without its provenance. -/
def Tag.bare (t : Tag) : Tag := { t with info := .synthetic }

/-- The declaration statement without the provenance of its nodes. -/
def Declaration.bare (d : Declaration) : Declaration := ⟨.synthetic, d.initializer.bare⟩

namespace Variable

/-- The variable without provenance. -/
def bare (v : Variable) : Variable :=
  { v with info := .synthetic, declaration := v.declaration.map Declaration.bare }

/-- The variable without provenance and without the statement that gives it its first value. -/
def head (v : Variable) : Variable := { v with info := .synthetic, declaration := none }

@[simp]
lemma initializer?_bare (v : Variable) : v.bare.initializer? = v.initializer?.map Expr.bare := by
  simp only [initializer?, bare, Option.map_map]
  rfl

end Variable

/-- The field without provenance. -/
def Field.bare (f : Field) : Field :=
  { f with toVariable := f.toVariable.bare, tags := f.tags.map Tag.bare }

namespace Method

/-- The method without provenance, and of its parameters the heads. -/
def bare (m : Method) : Method :=
  { m with
    info := .synthetic
    parameters := m.parameters.map Variable.head
    locals := m.locals.map Variable.bare
    body := m.body.map Block.bare
    tags := m.tags.map Tag.bare }

/-- The method with nothing inside of it. -/
def hollow (m : Method) : Method :=
  { m with info := .synthetic, parameters := [], locals := [], body := none, tags := [] }

/-- What counts of a method for a listing. -/
def shown (m : Method) : Method := if m.isInitializer then m.hollow else m.bare

/-- Which methods are initializers is shown. -/
@[simp]
lemma isInitializer_shown (m : Method) : m.shown.isInitializer = m.isInitializer := by
  rw [shown]
  split <;> rfl

/-- A method that is no initializer is shown with its code. -/
lemma shown_of_not_isInitializer {m : Method} (h : m.isInitializer = false) : m.shown = m.bare := by
  rw [shown, h]
  exact if_neg Bool.false_ne_true

end Method

/-- What counts of a type for a listing. -/
def DeclaredType.shown (t : DeclaredType) : DeclaredType :=
  { t with
    info := .synthetic
    fields := t.fields.map Field.bare
    methods := t.methods.map Method.shown
    tags := t.tags.map Tag.bare }

namespace Program

/-- What counts of a program for a listing. -/
def shown (p : Program) : Program := ⟨p.types.map DeclaredType.shown⟩

/-- The types that are looked up show what they showed. -/
@[simp]
lemma type?_shown (p : Program) (id : TypeId) :
    p.shown.type? id = (p.type? id).map DeclaredType.shown := List.getElem?_map ..

/-- The fields that are looked up show what they showed. -/
@[simp]
lemma field?_shown (p : Program) (id : FieldId) :
    p.shown.field? id = (p.field? id).map Field.bare := by
  rw [field?, field?, type?_shown]
  cases p.type? id.owner with
  | none => rfl
  | some t =>
    simp only [Option.map_some, Option.bind_some, DeclaredType.field?, DeclaredType.shown,
      List.getElem?_map]
    split <;> rfl

end Program

namespace Listing

namespace Names

/-- The names that count for a listing. -/
def shown (n : Names) : Names := ⟨n.program.shown, n.owner, n.within.map Method.bare⟩

variable (n : Names)

/-! ## Expressions -/

/-- Brackets around an operand depend on its kind only. -/
lemma operand_bare (e : Expr) (text : String) : operand e.bare text = operand e text := by
  cases e <;> rfl

lemma field?_shown (id : FieldId) :
    n.shown.program.field? id = (n.program.field? id).map Field.bare :=
  n.program.field?_shown id

lemma staticField_shown (id : FieldId) (name : String) :
    n.shown.staticField id name = n.staticField id name := by
  simp only [staticField, shown, Program.type?_shown]
  cases n.program.type? id.owner <;> rfl

lemma localVar?_shown (i : Nat) : n.shown.localVar? i = (n.localVar? i).map Variable.bare := by
  rw [localVar?, localVar?, shown]
  cases n.within with
  | none => rfl
  | some m => exact List.getElem?_map ..

lemma parameter?_shown (i : Nat) : n.shown.parameter? i = (n.parameter? i).map Variable.head := by
  rw [parameter?, parameter?, shown]
  cases n.within with
  | none => rfl
  | some m => exact List.getElem?_map ..

/-- An expression is listed without a look at what is not shown of it. -/
lemma expr_shown (e : Expr) : n.shown.expr e.bare = n.expr e := by
  induction e with
  | literal i v => rfl
  -- What is looked up for a name has the same name in what is shown.
  | staticField i id =>
    rw [Expr.bare, expr, expr, field?_shown]
    cases n.program.field? id with
    | none => rfl
    | some f => exact n.staticField_shown id f.name.text
  | instanceField i id receiver ih =>
    rw [Expr.bare, expr, expr, field?_shown, ih, operand_bare]
    cases n.program.field? id <;> rfl
  | localVar i k =>
    rw [Expr.bare, expr, expr, localVar?_shown]
    cases n.localVar? k <;> rfl
  | parameter i k =>
    rw [Expr.bare, expr, expr, parameter?_shown]
    cases n.parameter? k <;> rfl
  | self i id => rfl
  | binary i op lhs rhs ihl ihr => rw [Expr.bare, expr, expr, ihl, ihr, operand_bare, operand_bare]

/-! ## Statements -/

lemma declaration_shown (v : Variable) : n.shown.declaration v.bare = n.declaration v := by
  rw [declaration, declaration, Variable.initializer?_bare]
  cases v.initializer? with
  | none => rfl
  | some e =>
    simp only [Option.map_some, expr_shown]
    rfl

/-- An anchor is listed by the declaration that is shown of its variable. -/
lemma anchor_shown (slot : VarSlot) : n.shown.anchor slot = n.anchor slot := by
  cases slot with
  | field id => rfl
  | localVar i =>
    rw [anchor, anchor, localVar?_shown]
    cases n.localVar? i with
    | none => rfl
    | some v =>
      simp only [Option.map_some, declaration_shown]
      rfl

mutual

/-- A statement is listed without a look at what is not shown of it. -/
lemma stmt_shown (indent : Nat) : ∀ s : Stmt, n.shown.stmt indent s.bare = n.stmt indent s
  | .declare _ slot => by rw [Stmt.bare, stmt, stmt, anchor_shown]
  | .eval _ e => by rw [Stmt.bare, stmt, stmt, expr_shown]
  | .ret _ none => rfl
  | .ret _ (some e) => by rw [Stmt.bare, Option.map_some, stmt, stmt, expr_shown]
  | .branch _ cond onTrue onFalse => by
    rw [Stmt.bare, stmt, stmt, expr_shown, block_shown (indent + 1) onTrue,
      alternative_shown indent onFalse]
  | .block b => by rw [Stmt.bare, stmt, stmt, block_shown (indent + 1) b]

lemma block_shown (indent : Nat) :
    ∀ b : BlockOf Stmt, n.shown.block indent (Block.bare b) = n.block indent b
  | ⟨_, body⟩ => stmts_shown indent body

lemma alternative_shown (indent : Nat) :
    ∀ b : Option (BlockOf Stmt), n.shown.alternative indent (elseBare b) = n.alternative indent b
  | none => rfl
  | some b => by rw [elseBare, alternative, alternative, block_shown (indent + 1) b]

lemma stmts_shown (indent : Nat) :
    ∀ body : List Stmt, n.shown.stmts indent (stmtsBare body) = n.stmts indent body
  | [] => rfl
  | s :: rest => by rw [stmtsBare, stmts, stmts, stmt_shown indent s, stmts_shown indent rest]

end

/-! ## Declarations -/

lemma tags_bare (indent : Nat) (ts : List Tag) :
    tags indent (ts.map Tag.bare) = tags indent ts := by
  rw [tags, tags, List.map_map]
  rfl

/-- A field is listed by what is shown of it. -/
lemma field_shown (f : Field) : n.shown.field f.bare = n.field f := by
  have hdeclaration : n.shown.declaration f.bare.toVariable = n.declaration f.toVariable :=
    n.declaration_shown f.toVariable
  rw [field, field, hdeclaration, Field.bare, tags_bare]
  rfl

lemma signature_bare (m : Method) : signature m.bare = signature m := by
  rw [signature, signature, Method.bare, List.map_map]
  rfl

/-- A method is listed by what is shown of it; of an initializer only that there is one. -/
lemma method_shown (m : Method) : n.shown.method m.bare = n.method m := by
  have hinside : { n.shown with within := some m.bare } = shown { n with within := some m } := rfl
  rw [method, method, hinside, signature_bare, Method.bare, tags_bare]
  cases m.body with
  | none => rfl
  | some b =>
    rw [Option.map_some]
    simp only [block_shown]

/-- Initializers are left out, and so they are not looked into. -/
lemma methods_shown (ms : List Method) :
    ((ms.map Method.shown).filter (!·.isInitializer)).flatMap
        (fun m => ⟨0, ""⟩ :: n.shown.method m) =
      (ms.filter (!·.isInitializer)).flatMap (fun m => ⟨0, ""⟩ :: n.method m) := by
  induction ms with
  -- Not by evaluation, which would compare the listings of a method before the empty lists.
  | nil => simp only [List.map_nil, List.filter_nil, List.flatMap_nil]
  | cons m rest ih =>
    rw [List.map_cons, List.filter_cons, List.filter_cons, Method.isInitializer_shown]
    cases hm : m.isInitializer with
    | true => simp only [Bool.not_true, Bool.false_eq_true, if_false, ih]
    | false =>
      simp only [Bool.not_false, if_true, List.flatMap_cons, ih,
        Method.shown_of_not_isInitializer hm, method_shown]

/-- A type is listed by what is shown of it. -/
lemma type_shown (t : DeclaredType) : n.shown.type t.shown = n.type t := by
  have hfields : (t.fields.map Field.bare).flatMap n.shown.field = t.fields.flatMap n.field := by
    rw [List.flatMap_map]
    simp only [field_shown]
  rw [type, type, DeclaredType.shown, tags_bare, hfields, methods_shown]

end Names
end Listing

namespace Program

/-- A type of a program is listed by what is shown of the program. -/
lemma listType_shown (p : Program) (id : TypeId) : p.shown.listType id = p.listType id := by
  rw [listType, listType, type?_shown]
  cases p.type? id with
  | none => rfl
  | some t => exact congrArg Listing.render (Listing.Names.type_shown ⟨p, id, none⟩ t)

/-- The listing of a program is that of what counts of it. -/
theorem list_shown (p : Program) : p.shown.list = p.list := by
  rw [list, list, shown, List.map_map]
  congr 2
  funext t
  exact p.listType_shown t.id

/-- Programs have the same listings if they differ in nothing but the provenance of their nodes,
what is inside of initializers, and the initializers of parameters. -/
theorem listings_eq_of_shown_eq {p q : Program} (h : p.shown = q.shown) :
    p.list = q.list ∧ ∀ id, p.listType id = q.listType id := by
  constructor
  · rw [← p.list_shown, h, q.list_shown]
  · intro id
    rw [← p.listType_shown, h, q.listType_shown]

/-- A program with all nodes from one place, with some statements in its first initializer, and with
a method whose parameter may have an initializer. -/
def withHidden (info : Provenance) (initial : List Stmt) (value : Option Declaration) : Program :=
  let run : Method := {
    info, name := "run", owner := 0, isStatic := false, returnType := .primitive .int
    parameters := [⟨info, .ofChar 'n', .primitive .int, false, value⟩]
    body := some ⟨info, [.ret info (some (.parameter info 0))]⟩
    tags := [⟨info, "Tested"⟩] }
  let first := { DeclaredType.emptyInitializer info 0 true with body := some ⟨info, initial⟩ }
  let t := DeclaredType.new info 0 "C" .classType none
  ⟨[{ t with methods := [first, DeclaredType.emptyInitializer info 0 false, run] }]⟩

/-- Two programs that differ in provenances, in the code of an initializer and in the initial value
of a parameter are listed the same way. -/
theorem listings_withHidden :
    (withHidden .synthetic [] none).shown =
        (withHidden (.copy Span.dummy .synthetic) [.ret .synthetic none]
          (some ⟨.synthetic, .literal .synthetic (.int 0)⟩)).shown ∧
      (withHidden .synthetic [] none).list =
        (withHidden (.copy Span.dummy .synthetic) [.ret .synthetic none]
          (some ⟨.synthetic, .literal .synthetic (.int 0)⟩)).list := by
  have hsame : (withHidden .synthetic [] none).shown =
      (withHidden (.copy Span.dummy .synthetic) [.ret .synthetic none]
        (some ⟨.synthetic, .literal .synthetic (.int 0)⟩)).shown := rfl
  exact ⟨hsame, (listings_eq_of_shown_eq hsame).1⟩

end Program
end DeclIR
