import DeclIR.Program
import DeclIR.Proofs.Code.Anchors
import DeclIR.Proofs.Construction.Flags

/-!
# Constructing programs

A program is constructed by changes, from the program without types on.  A change that names what is
not there, or that is refused, leaves the program as it was.
-/

namespace DeclIR

/-! ## Methods -/

/-- A change of a method. -/
inductive MethodChange where
  | addParameter (v : Variable)
  | addLocal (v : Variable)
  | setLocalFinal (index : Nat)
  | declareLocal (index : Nat) (d : Declaration)
  | setBody (b : Block)
  /-- Adds statements at the end of the body. -/
  | extendBody (code : List Stmt)

namespace MethodChange

/-- Changes a local variable of a method, if it is there. -/
def onLocal (f : Variable → Variable) (index : Nat) (m : Method) : Option Method :=
  m.locals[index]?.map fun v => { m with locals := m.locals.set index (f v) }

/-- Changes a method. -/
def run : MethodChange → Method → Option Method
  | addParameter v, m => some (m.addParameter v)
  | addLocal v, m => some (m.addLocal v)
  | setLocalFinal i, m => onLocal Variable.setFinal i m
  | declareLocal i d, m => onLocal (·.declare d) i m
  | setBody b, m => some { m with body := some b }
  | extendBody code, m => m.mapStmts? (· ++ code)

/-- The statements that come into the body. -/
def code : MethodChange → List Stmt
  | setBody b => b.stmts
  | extendBody code => code
  | _ => []

/-- Whether the body is changed. -/
def entersBody : MethodChange → Bool
  | setBody _ | extendBody _ => true
  | _ => false

end MethodChange

/-! ## Types -/

namespace DeclaredType

variable {t : DeclaredType}

/-- A type finds its own fields by position. -/
lemma field?_eq_some_iff {id : FieldId} {f : Field} :
    t.field? id = some f ↔ id.owner = t.id ∧ t.fields[id.index]? = some f := by
  simp only [field?, Option.ite_none_right_eq_some]

/-- A type finds its own methods by position. -/
lemma method?_eq_some_iff {id : MethodId} {m : Method} :
    t.method? id = some m ↔ id.owner = t.id ∧ t.methods[id.index]? = some m := by
  simp only [method?, Option.ite_none_right_eq_some]

end DeclaredType

/-- A change of a declared type. -/
inductive TypeChange where
  | addField (info : Provenance) (name : Name) (type : Ty) (isStatic : Bool) (d : Disposition)
  | pushField (f : BuiltField)
  | addMethod (info : Provenance) (name : String) (isStatic : Bool) (returnType : Ty)
  | setTags (tags : List Tag)
  | field (id : FieldId) (c : FieldChange)
  | method (id : MethodId) (c : MethodChange)

namespace TypeChange

/-- Changes a declared type. -/
def run : TypeChange → DeclaredType → Option DeclaredType
  | addField info name type isStatic d, t => some (t.addField info name type isStatic d).1
  | pushField f, t => (t.pushField? f).map (·.1)
  | addMethod info name isStatic returnType, t => some (t.addMethod info name isStatic returnType).1
  | setTags tags, t => some { t with tags }
  | field id c, t => do
    let f ← t.field? id
    let g ← (c.run f).toOption
    return t.setField id.index g
  | method id c, t => do
    let m ← t.method? id
    let m' ← c.run m
    return t.setMethod id.index m'

/-- The type after a change, or after the change was refused. -/
def apply (c : TypeChange) (t : DeclaredType) : DeclaredType := (c.run t).getD t

/-- A change of a field succeeds just when the field is there and allows it. -/
lemma run_field_eq_some_iff {id : FieldId} {c : FieldChange} {t t' : DeclaredType} :
    (field id c).run t = some t' ↔ ∃ f, t.field? id = some f ∧
      ∃ g, c.run f = .ok g ∧ t' = t.setField id.index g := by
  have hoption (r : Except Fault Field) (g : Field) : r.toOption = some g ↔ r = .ok g := by
    cases r <;> simp [Except.toOption]
  simp only [run, Option.bind_eq_bind, Option.bind_eq_some_iff, Option.pure_def, Option.some.injEq,
    hoption, @eq_comm _ t']

/-- A change of a method succeeds just when the method is there and allows it. -/
lemma run_method_eq_some_iff {id : MethodId} {c : MethodChange} {t t' : DeclaredType} :
    (method id c).run t = some t' ↔ ∃ m, t.method? id = some m ∧
      ∃ m', c.run m = some m' ∧ t' = t.setMethod id.index m' := by
  simp only [run, Option.bind_eq_bind, Option.bind_eq_some_iff, Option.pure_def, Option.some.injEq,
    @eq_comm _ t']

end TypeChange

/-! ## Programs -/

namespace Program

variable {p q : Program}

/-- A field can be exchanged just when its handle is one of the type that it leads to. -/
lemma setField?_eq_some_iff {id : FieldId} {f : Field} :
    p.setField? id f = some q ↔ ∃ t, p.type? id.owner = some t ∧ (t.field? id).isSome ∧
      q = p.setType id.owner (t.setField id.index f) := by
  simp only [setField?, Option.bind_eq_bind, Option.bind_eq_some_iff, Option.pure_def,
    Option.some.injEq, Option.isSome_iff_exists, exists_and_right, @eq_comm _ q]

/-- A method can be exchanged just when its handle is one of the type that it leads to. -/
lemma setMethod?_eq_some_iff {id : MethodId} {m : Method} :
    p.setMethod? id m = some q ↔ ∃ t, p.type? id.owner = some t ∧ (t.method? id).isSome ∧
      q = p.setType id.owner (t.setMethod id.index m) := by
  simp only [setMethod?, Option.bind_eq_bind, Option.bind_eq_some_iff, Option.pure_def,
    Option.some.injEq, Option.isSome_iff_exists, exists_and_right, @eq_comm _ q]

end Program

/-- A change of a program. -/
inductive Construction where
  | declareType (info : Provenance) (name : String) (kind : TypeKind) (enclosing : Option TypeId)
  | change (id : TypeId) (c : TypeChange)

namespace Construction

/-- Changes a program. -/
def run : Construction → Program → Option Program
  | declareType info name kind enclosing, p => some (p.declareType info name kind enclosing).1
  | change id c, p => do
    let t ← p.type? id
    let t' ← c.run t
    return p.setType id t'

/-- A change of a type succeeds just when the type is there and allows it. -/
lemma run_change_eq_some_iff {id : TypeId} {c : TypeChange} {p p' : Program} :
    (change id c).run p = some p' ↔ ∃ t, p.type? id = some t ∧
      ∃ t', c.run t = some t' ∧ p' = p.setType id t' := by
  simp only [run, Option.bind_eq_bind, Option.bind_eq_some_iff, Option.pure_def, Option.some.injEq,
    @eq_comm _ p']

/-- The program after a change, or after the change was refused. -/
def apply (c : Construction) (p : Program) : Program := (c.run p).getD p

/-- The program after some changes. -/
def applyAll (changes : List Construction) (p : Program) : Program :=
  changes.foldl (fun p c => c.apply p) p

end Construction
end DeclIR
