import DeclIR.Program
import DeclIR.Text.Padding

/-!
# Listings

A listing shows declared types as source code.  Field initializers are shown with their fields, and
so the initializers that execute them are left out.  A nested binary expression is put in brackets.
A handle that does not resolve is shown as a comment.
-/

namespace DeclIR.Listing

/-- A line and how far it is indented. -/
structure Line where
  indent : Nat
  text : String
deriving DecidableEq, Repr

/-- A line is indented by four spaces for each level. -/
def Line.render (l : Line) : String := Text.repeated (4 * l.indent) ' ' ++ l.text ++ "\n"

/-- What the names in a piece of code are looked up in. -/
structure Names where
  program : Program
  /-- The type whose static fields are shown by their bare names. -/
  owner : TypeId
  /-- The method whose variables are shown. -/
  within : Option Method := none

/-! ## Expressions -/

/-- A description in place of something that cannot be shown. -/
def comment (text : String) : String := "/* " ++ text ++ " */"

/-- An expression in the place of an operand, given its text. -/
def operand (e : Expr) (text : String) : String :=
  match e with
  | .binary .. => "(" ++ text ++ ")"
  | _ => text

namespace Names

/-- A static field: by its bare name in its own type, and behind its type's name elsewhere. -/
def staticField (n : Names) (id : FieldId) (name : String) : String :=
  if id.owner = n.owner then name
  else
    match n.program.type? id.owner with
    | some t => t.name ++ "." ++ name
    | none => name

/-- The local variable at a position of the method. -/
def localVar? (n : Names) (i : Nat) : Option Variable := n.within.bind (·.locals[i]?)

/-- The parameter at a position of the method. -/
def parameter? (n : Names) (i : Nat) : Option Variable := n.within.bind (·.parameters[i]?)

/-- The text of an expression. -/
def expr (n : Names) : Expr → String
  | .literal _ v => v.text
  | .staticField _ id =>
    match n.program.field? id with
    | some f => n.staticField id f.name.text
    | none => comment (VarSlot.field id).text
  | .instanceField _ id receiver =>
    match n.program.field? id with
    | some f => operand receiver (n.expr receiver) ++ "." ++ f.name.text
    | none => comment (VarSlot.field id).text
  | .localVar _ i =>
    match n.localVar? i with
    | some v => v.name.text
    | none => comment ("local #" ++ toString i)
  | .parameter _ i =>
    match n.parameter? i with
    | some v => v.name.text
    | none => comment ("param #" ++ toString i)
  | .self _ _ => "this"
  | .binary _ op lhs rhs =>
    operand lhs (n.expr lhs) ++ " " ++ op.text ++ " " ++ operand rhs (n.expr rhs)

/-! ## Statements -/

/-- The modifier of a final variable. -/
def finalModifier (isFinal : Bool) : String := if isFinal then "final " else ""

/-- The declaration of a variable, after its modifiers. -/
def declaration (n : Names) (v : Variable) : String :=
  v.type.text ++ " " ++ v.name.text ++
    (match v.initializer? with
      | some e => " = " ++ n.expr e
      | none => "") ++
    ";"

/-- The declaration statement that an anchor stands for.  The anchors of fields have none here. -/
def anchor (n : Names) : VarSlot → String
  | .localVar i =>
    match n.localVar? i with
    | some v => finalModifier v.isFinal ++ n.declaration v
    | none => comment (VarSlot.localVar i).text ++ ";"
  | .field id => comment (VarSlot.field id).text ++ ";"

mutual

/-- The lines of a statement. -/
def stmt (n : Names) (indent : Nat) : Stmt → List Line
  | .declare _ slot => [⟨indent, n.anchor slot⟩]
  | .eval _ e => [⟨indent, n.expr e ++ ";"⟩]
  | .ret _ none => [⟨indent, "return;"⟩]
  | .ret _ (some e) => [⟨indent, "return " ++ n.expr e ++ ";"⟩]
  | .branch _ cond onTrue onFalse =>
    ⟨indent, "if (" ++ n.expr cond ++ ") \x7b"⟩ :: n.block (indent + 1) onTrue ++
      n.alternative indent onFalse ++ [⟨indent, "\x7d"⟩]
  | .block b => ⟨indent, "\x7b"⟩ :: n.block (indent + 1) b ++ [⟨indent, "\x7d"⟩]

/-- The lines of a block's statements. -/
def block (n : Names) (indent : Nat) : BlockOf Stmt → List Line
  | ⟨_, body⟩ => n.stmts indent body

/-- The lines of an alternative that may be absent. -/
def alternative (n : Names) (indent : Nat) : Option (BlockOf Stmt) → List Line
  | none => []
  | some b => ⟨indent, "\x7d else \x7b"⟩ :: n.block (indent + 1) b

/-- The lines of some statements. -/
def stmts (n : Names) (indent : Nat) : List Stmt → List Line
  | [] => []
  | s :: rest => n.stmt indent s ++ n.stmts indent rest

end

/-! ## Declarations -/

/-- One line for each annotation. -/
def tags (indent : Nat) (ts : List Tag) : List Line := ts.map fun t => ⟨indent, t.text⟩

/-- The lines of a field. -/
def field (n : Names) (f : Field) : List Line :=
  tags 1 f.tags ++
    [⟨1, (if f.isStatic then "static " else "") ++ finalModifier f.isFinal ++
      (if f.isVolatile then "volatile " else "") ++ n.declaration f.toVariable⟩]

/-- A parameter in a method's head. -/
def parameter (v : Variable) : String :=
  finalModifier v.isFinal ++ v.type.text ++ " " ++ v.name.text

/-- The head of a method. -/
def signature (m : Method) : String :=
  (if m.isStatic then "static " else "") ++ m.returnType.text ++ " " ++ m.name ++ "(" ++
    String.intercalate ", " (m.parameters.map parameter) ++ ")"

/-- The lines of a method. -/
def method (n : Names) (m : Method) : List Line :=
  tags 1 m.tags ++
    match m.body with
    | some b =>
      ⟨1, signature m ++ " \x7b"⟩ :: { n with within := some m }.block 2 b ++ [⟨1, "\x7d"⟩]
    | none => [⟨1, signature m ++ ";"⟩]

/-- The lines of a declared type.  A blank line stands before each method. -/
def type (n : Names) (t : DeclaredType) : List Line :=
  tags 0 t.tags ++ ⟨0, t.kind.text ++ " " ++ t.name ++ " \x7b"⟩ :: t.fields.flatMap n.field ++
    (t.methods.filter (!·.isInitializer)).flatMap (fun m => ⟨0, ""⟩ :: n.method m) ++ [⟨0, "\x7d"⟩]

end Names

/-- The text of some lines. -/
def render (ls : List Line) : String := String.join (ls.map Line.render)

end Listing

namespace Program

/-- The listing of the type that a handle names, which is empty if there is none. -/
def listType (p : Program) (id : TypeId) : String :=
  match p.type? id with
  | some t => Listing.render (Listing.Names.type ⟨p, id, none⟩ t)
  | none => ""

/-- The listings of all types, each under the handle it has for itself, with blank lines between. -/
def list (p : Program) : String := String.intercalate "\n" (p.types.map fun t => p.listType t.id)

end Program
end DeclIR
