import DeclIR.Declaration.DeclaredType

/-!
# Programs

A program is the list of its declared types.  Types are never removed, so a handle that was handed
out stays one of the same type as long as the list is only added to.
-/

namespace DeclIR

/-- The declared types of a compilation. -/
structure Program where
  types : List DeclaredType := []

namespace Program

/-- The program without types. -/
def empty : Program := {}

/-- Declares a new type behind the others. -/
def declareType (p : Program) (info : Provenance) (name : String) (kind : TypeKind)
    (enclosing : Option TypeId) : Program × TypeId :=
  ({ types := p.types ++ [.new info p.types.length name kind enclosing] }, p.types.length)

/-- The type at the position that a handle gives. -/
def type? (p : Program) (id : TypeId) : Option DeclaredType := p.types[id]?

/-- The field that a handle names. -/
def field? (p : Program) (id : FieldId) : Option Field := (p.type? id.owner).bind (·.field? id)

/-- The method that a handle names. -/
def method? (p : Program) (id : MethodId) : Option Method := (p.type? id.owner).bind (·.method? id)

/-- Puts a type in the place of another one. -/
def setType (p : Program) (id : TypeId) (t : DeclaredType) : Program :=
  { types := p.types.set id t }

/-- Puts a field in the place of the one that a handle names, if there is one. -/
def setField? (p : Program) (id : FieldId) (f : Field) : Option Program := do
  let t ← p.type? id.owner
  let _ ← t.field? id
  return p.setType id.owner (t.setField id.index f)

/-- Puts a method in the place of the one that a handle names, if there is one. -/
def setMethod? (p : Program) (id : MethodId) (m : Method) : Option Program := do
  let t ← p.type? id.owner
  let _ ← t.method? id
  return p.setType id.owner (t.setMethod id.index m)

/-- Lets two types change places, if both are there. -/
def swapTypes? (p : Program) (a b : TypeId) : Option Program := do
  let s ← p.type? a
  let t ← p.type? b
  return (p.setType a t).setType b s

/-- The handle that the first type with this name has for itself. -/
def typeByName? (p : Program) (name : String) : Option TypeId :=
  (p.types.find? (·.name = name)).map (·.id)

/-- The types declared directly inside of `outer`. -/
def nestedTypes (p : Program) (outer : TypeId) : List TypeId :=
  (p.types.filter (·.enclosing = some outer)).map (·.id)

/-- The number of fields in all types. -/
def fieldCount (p : Program) : Nat := p.types.foldl (fun n t => n + t.fields.length) 0

end Program
end DeclIR
