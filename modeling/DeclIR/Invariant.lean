import DeclIR.Traversal.Walk

/-!
# Consistency of declared types

A declared type is consistent when the flags and the owner of each field agree with one another and
with the type, and when each field has exactly one anchor, which stands in an initializer of the
field's staticness.  `checker` is a visitor that reports the first violation: of the fields first,
then of the anchors in the order they are executed, and last of fields without or with too many
anchors.
-/

namespace DeclIR

open Visit

/-- What can be inconsistent about a field. -/
inductive Violation where
  | finalAndVolatile
  | constantNotFinal
  | captureNotFinal
  | captureStatic
  | foreignOwner (owner : TypeId)
  | wrongInitializer
  | outsideInitializer (index : Nat)
  | unanchored
  | anchoredTimes (count : Nat)
deriving DecidableEq, Repr

/-- The description of a violation by the field of this name. -/
def Violation.text (name : String) : Violation → String
  | finalAndVolatile => "field `" ++ name ++ "` is both final and volatile"
  | constantNotFinal => "compile-time constant `" ++ name ++ "` is not final"
  | captureNotFinal => "this-capture `" ++ name ++ "` is not final"
  | captureStatic => "this-capture `" ++ name ++ "` is static"
  | foreignOwner owner => "field `" ++ name ++ "` claims enclosing type #" ++ toString owner
  | wrongInitializer => "field `" ++ name ++ "` is anchored in the wrong initializer"
  | outsideInitializer index =>
    "field `" ++ name ++ "` (#" ++ toString index ++ ") is anchored outside an initializer"
  | unanchored => "field `" ++ name ++ "` has no declaration anchor"
  | anchoredTimes count => "field `" ++ name ++ "` is anchored " ++ toString count ++ " times"

namespace Field

/-- The first rule that the flags of a field break. -/
def flagViolation? (f : Field) : Option Violation :=
  if f.isFinal && f.isVolatile then some .finalAndVolatile
  else if f.isConstant && !f.isFinal then some .constantNotFinal
  else if f.isCapture && !f.isFinal then some .captureNotFinal
  else if f.isCapture && f.isStatic then some .captureStatic
  else none

/-- The first rule that a field breaks among those of a type, its anchors apart. -/
def violation? (f : Field) (owner : Option TypeId) : Option Violation :=
  match f.flagViolation? with
  | some v => some v
  | none => if owner = some f.owner then none else some (.foreignOwner f.owner)

/-- The rule that an anchor of a field breaks in a method, where `initializer` is the staticness of
the method if it is an initializer. -/
def anchorViolation? (f : Field) (index : Nat) (initializer : Option Bool) : Option Violation :=
  match initializer with
  | some isStatic => if isStatic = f.isStatic then none else some .wrongInitializer
  | none => some (.outsideInitializer index)

/-- The rule that a field with these anchors breaks, and where: a field without an anchor is at
fault itself, otherwise the second anchor is. -/
def countViolation? (f : Field) : List Provenance → Option (Violation × Provenance)
  | [] => some (.unanchored, f.info)
  | [_] => none
  | sites@(_ :: second :: _) => some (.anchoredTimes sites.length, second)

end Field

/-- What the checker knows about the type it is in. -/
structure Checker where
  typeName : String := ""
  /-- The field index and the provenance of each anchor so far. -/
  anchors : List (Nat × Provenance) := []
  /-- The staticness of the initializer it is in, if it is in one. -/
  initializer : Option Bool := none

namespace Checker

/-- The fault for a violation by a field. -/
def fault (c : Checker) (f : Field) (v : Violation) (info : Provenance) : Fault :=
  .violation c.typeName (v.text f.name.text) info

/-- The provenances of the anchors of one field. -/
def sites (c : Checker) (index : Nat) : List Provenance :=
  (c.anchors.filter (·.1 = index)).map (·.2)

/-- The fault of the first field that has not exactly one anchor. -/
def countFault? (c : Checker) (fields : List Field) : Option Fault :=
  fields.zipIdx.findSome? fun (f, i) =>
    (f.countViolation? (c.sites i)).map fun (v, info) => c.fault f v info

/-- The fault of a field whose flags or owner break a rule. -/
def fieldFault? (c : Checker) (f : Field) (owner : Option TypeId) : Option Fault :=
  (f.violation? owner).map fun v => c.fault f v f.info

/-- The fault of an anchor that stands in the wrong method. -/
def anchorFault? (c : Checker) (f : Field) (index : Nat) (info : Provenance) : Option Fault :=
  (f.anchorViolation? index c.initializer).map fun v => c.fault f v info

end Checker

/-- Fails if there is a fault. -/
def Visit.raise? {σ ν : Type} : Option Fault → Visit σ ν Unit
  | some f => throw f
  | none => pure ()

/-- The visitor that checks the consistency of declared types. -/
def checker : Visitor Checker where
  visitType := do
    let t ← node
    modify fun s => { s with own := { s.own with typeName := t.name, anchors := [] } }
    return true
  endVisitType := do
    raise? ((← get).own.countFault? (← node).fields)
  visitField := do
    let s ← get
    raise? (s.own.fieldFault? s.node s.context.enclosingType)
    return false
  visitMethod := do
    let m ← node
    let initializer := if m.isInitializer then some m.isStatic else none
    modify fun s => { s with own := { s.own with initializer } }
    return true
  endVisitMethod := modify fun s => { s with own := { s.own with initializer := none } }
  visitDeclaration slot info := do
    match slot, ← node with
    | .field id, .field f =>
      raise? ((← get).own.anchorFault? f id.index info)
      modify fun s =>
        { s with own := { s.own with anchors := s.own.anchors ++ [(id.index, info)] } }
    | _, _ => pure ()
    return false
  visitExpr := return false

/-- Checks a declared type on its own. -/
def DeclaredType.verify (t : DeclaredType) : Except Fault Unit :=
  match checker.walkType ⟨t, {}, {}⟩ with
  | .ok .. => .ok ()
  | .error f _ => .error f

/-- Checks the declared types of a program by position, up to the first that is inconsistent. -/
def Program.verify (p : Program) : Except Fault Unit :=
  match p.traverse checker {} with
  | .ok .. => .ok ()
  | .error f _ => .error f

/-- The diagnostics of a program: at most one, since checking ends at the first violation. -/
def Program.check (p : Program) : List Diagnostic :=
  match p.verify with
  | .ok _ => []
  | .error f => [f.toDiagnostic]

end DeclIR
