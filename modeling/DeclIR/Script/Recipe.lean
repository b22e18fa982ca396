import DeclIR.Pass.Basic
import DeclIR.Script.Rule

/-!
# Scripted passes

A recipe describes a pass by edits of declared types.  It reports a type as changed if one of its
edits did something, unless it says otherwise.
-/

namespace DeclIR.Script

/-- An edit of a declared type. -/
inductive TypeEdit where
  /-- Make the first field of this name final. -/
  | setFinal (field : String)
  /-- Make the first field of this name volatile. -/
  | setVolatile (field : String)
  /-- Add the field that this gives for the type's handle. -/
  | addField (field : TypeId → Field)
  | setTags (tags : List Tag)
  | clearBody (method : Nat)
  | push (method : Nat) (s : Stmt)
  | traverse (s : Script)
  | abort (a : Abort)

/-- A description of a pass. -/
structure Recipe where
  name : String
  /-- The edits, for types of one name or for all types. -/
  edits : List (Option String × List TypeEdit) := []
  /-- What to report, whatever the edits did. -/
  changed : Option Bool := none

namespace TypeEdit

/-- Changes the first field of a name, and says whether there is one. -/
def editField (name : String) (f : Field → Except Fault Field) :
    EStateM Failure DeclaredType Bool := do
  let t ← get
  match t.fieldIndex? name with
  | none => return false
  | some i =>
    match t.fields[i]?.map f with
    | some (.ok field) =>
      set (t.setField i field)
      return true
    | some (.error e) => throw (.fault e)
    | none => return false

/-- Changes the statements of a method's body. -/
def editBody (index : Nat) (f : List Stmt → List Stmt) : EStateM Failure DeclaredType Bool := do
  let t ← get
  match t.methods[index]?.bind (·.mapStmts? f) with
  | some m =>
    set (t.setMethod index m)
    return true
  | none => throw (.abort .absent)

/-- Carries out an edit, and says whether it did something. -/
def apply : TypeEdit → EStateM Failure DeclaredType Bool
  | setFinal name => editField name Field.setFinal
  | setVolatile name => editField name Field.setVolatile
  | addField field => do
    let t ← get
    match t.pushField? (field t.id) with
    | some (t, _) =>
      set t
      return true
    | none => throw (.abort .invalid)
  | setTags tags => do
    modify fun t => { t with tags }
    return true
  | clearBody index => editBody index fun _ => []
  | push index s => editBody index (· ++ [s])
  | traverse s => fun t =>
    match s.visitor.walkType ⟨t, {}, s.start⟩ with
    | .ok _ r => .ok r.context.changed r.node
    | .error f r => .error (failure f r.own) r.node
  | abort a => throw (.abort a)

end TypeEdit

/-- Carries out edits in order, and says whether one of them did something. -/
def applyAll : List TypeEdit → EStateM Failure DeclaredType Bool
  | [] => return false
  | e :: rest => do
    let changed ← e.apply
    let later ← applyAll rest
    return changed || later

/-- The pass that a recipe describes. -/
def Recipe.pass (r : Recipe) : Pass Failure where
  name := r.name
  run := do
    let name := (← get).name
    let edits := (r.edits.filter fun (type, _) => type.all (· = name)).flatMap (·.2)
    let changed ← applyAll edits
    return r.changed.getD changed

end DeclIR.Script
