import DeclIR.Declaration.Field
import DeclIR.Declaration.Method

/-!
# Declared types

A class or interface owns its fields and methods.  Its first two methods are the static and the
instance initializer; a field that is added gets an anchor at the end of the one it belongs to.
-/

namespace DeclIR

/-- The two kinds of declared types. -/
inductive TypeKind where
  | classType
  | interfaceType
deriving DecidableEq, Repr

/-- Both kinds of declared types. -/
def TypeKind.all : List TypeKind := [.classType, .interfaceType]

/-- The keyword that declares a type of this kind. -/
def TypeKind.text : TypeKind → String
  | classType => "class"
  | interfaceType => "interface"

/-- A class or interface. -/
structure DeclaredType where
  info : Provenance
  id : TypeId
  name : String
  kind : TypeKind
  /-- The type that this one is declared inside of. -/
  enclosing : Option TypeId
  fields : List Field := []
  methods : List Method
  tags : List Tag := []

namespace DeclaredType

/-- An initializer without statements. -/
def emptyInitializer (info : Provenance) (owner : TypeId) (isStatic : Bool) : Method where
  info
  name := if isStatic then staticInitializerName else instanceInitializerName
  owner
  isStatic
  returnType := .primitive .void
  body := some ⟨info, []⟩

/-- A new type with two empty initializers. -/
def new (info : Provenance) (id : TypeId) (name : String) (kind : TypeKind)
    (enclosing : Option TypeId) : DeclaredType where
  info
  id
  name
  kind
  enclosing
  methods := [emptyInitializer info id true, emptyInitializer info id false]

/-- The name of the type as a type. -/
def asType (t : DeclaredType) : Ty := .declared t.id t.name

/-- The position of the initializer that a field's anchor belongs to. -/
def initializerIndex (isStatic : Bool) : Nat := if isStatic then 0 else 1

/-- Adds an anchor at the end of a method's body, if the method has one. -/
def anchorIn (m : Method) (info : Provenance) (slot : VarSlot) : Method :=
  (m.mapStmts? (· ++ [.declare info slot])).getD m

/-- Adds a field behind the others, and an anchor for it. -/
def insertField (t : DeclaredType) (f : Field) : DeclaredType :=
  { t with
    fields := t.fields ++ [f]
    methods := t.methods.modify (initializerIndex f.isStatic) fun m =>
      anchorIn m f.info (.field ⟨t.id, t.fields.length⟩) }

/-- Adds a field that says it belongs to this type; any other field is refused. -/
def pushField? (t : DeclaredType) (f : Field) : Option (DeclaredType × FieldId) :=
  if f.owner = t.id then some (t.insertField f, ⟨t.id, t.fields.length⟩) else none

/-- Adds a new field of this type. -/
def addField (t : DeclaredType) (info : Provenance) (name : Name) (type : Ty) (isStatic : Bool)
    (d : Disposition) : DeclaredType × FieldId :=
  (t.insertField (Field.new info name t.id type isStatic d), ⟨t.id, t.fields.length⟩)

/-- Adds a new method without parameters, local variables or body. -/
def addMethod (t : DeclaredType) (info : Provenance) (name : String) (isStatic : Bool)
    (returnType : Ty) : DeclaredType × MethodId :=
  ({ t with methods := t.methods ++ [{ info, name, owner := t.id, isStatic, returnType }] },
   ⟨t.id, t.methods.length⟩)

/-- The field that a handle names, if the handle is one of this type. -/
def field? (t : DeclaredType) (id : FieldId) : Option Field :=
  if id.owner = t.id then t.fields[id.index]? else none

/-- The method that a handle names, if the handle is one of this type. -/
def method? (t : DeclaredType) (id : MethodId) : Option Method :=
  if id.owner = t.id then t.methods[id.index]? else none

/-- The position of the first field with this name. -/
def fieldIndex? (t : DeclaredType) (name : String) : Option Nat :=
  t.fields.findIdx? (·.name.text = name)

/-- The first field with this name. -/
def fieldByName? (t : DeclaredType) (name : String) : Option FieldId :=
  (t.fieldIndex? name).map (⟨t.id, ·⟩)

/-- Puts a field in the place of another one. -/
def setField (t : DeclaredType) (index : Nat) (f : Field) : DeclaredType :=
  { t with fields := t.fields.set index f }

/-- Puts a method in the place of another one. -/
def setMethod (t : DeclaredType) (index : Nat) (m : Method) : DeclaredType :=
  { t with methods := t.methods.set index m }

end DeclaredType
end DeclIR
