import DeclIR.Traversal.Walk

/-!
# Scripted visitors

A script describes a visitor by rules.  Each time a hook is called, the rules that match the call
fire in order and carry out their actions: they ask the context, request edits, change the node or
refuse it.  The visitor keeps a record of the calls, the answers and the faults that a rule caught.

An action that makes no sense at the node ends the traversal without a fault of the program.
-/

namespace DeclIR

namespace Script

open Visit

/-- The two hooks of a node. -/
inductive Phase where
  | pre
  | post
deriving DecidableEq, Repr

/-- The name of a hook. -/
def Phase.text : Phase → String
  | pre => "pre"
  | post => "post"

/-- What can be asked of a context. -/
inductive Question where
  | canRemove
  | didChange
  | depth
  | ancestry
  | current
  | parent
  | enclosingType
deriving DecidableEq, Repr

/-- All questions. -/
def Question.all : List Question :=
  [.canRemove, .didChange, .depth, .ancestry, .current, .parent, .enclosingType]

/-- The name of a question. -/
def Question.text : Question → String
  | canRemove => "can_remove"
  | didChange => "did_change"
  | depth => "depth"
  | ancestry => "ancestry"
  | current => "current"
  | parent => "parent"
  | enclosingType => "enclosing_type"

/-- The answer to a question. -/
inductive Answer where
  | truth (b : Bool)
  | count (n : Nat)
  | kinds (ks : List NodeKind)
  | kind (k : Option NodeKind)
  | type (id : Option TypeId)
deriving DecidableEq, Repr

/-- What a context answers. -/
def Question.answer (c : Context) : Question → Answer
  | canRemove => .truth c.canRemove
  | didChange => .truth c.changed
  | depth => .count c.depth
  | ancestry => .kinds c.ancestry
  | current => .kind c.current?
  | parent => .kind c.parent?
  | enclosingType => .type c.enclosingType

/-- Why a script cannot go on. -/
inductive Abort where
  /-- The action is not one for the node. -/
  | unsuited
  /-- The action would make a declaration that cannot be made. -/
  | invalid
  /-- The action names something that is not there. -/
  | absent
deriving DecidableEq, Repr

/-- Something that a rule does. -/
inductive Action where
  /-- Leave the parts of the node out. -/
  | skip
  | ask (q : Question)
  /-- Refuse the node, as the visitor of this name. -/
  | refuse (visitor : String)
  | request (r : Request)
  | markChanged
  | setTags (tags : List Tag)
  /-- Add the field that this gives for the type's handle, if it can be made. -/
  | addField (field : Except Abort (TypeId → Field))
  | setFinal
  | setVolatile
  | declare (d : Declaration)
  | setBody (b : Block)
  | addLocal (v : Except Abort Variable)
  | addParameter (v : Except Abort Variable)
  | push (s : Stmt)
  | clear
  | becomeStmt (s : Stmt)
  | becomeExpr (e : Expr)
  | abort (a : Abort)

/-- Whether the action leaves the parts of the node out. -/
def Action.isSkip : Action → Bool
  | skip => true
  | _ => false

/-- The sum of some numbers. -/
def total (list : List Nat) : Nat := list.foldr (· + ·) 0

/-- The levels of the code that an action brings into an expression or a body. -/
def Action.levels : Action → Nat
  | becomeStmt s => s.nesting
  | becomeExpr e => e.depth
  | push s => s.nesting
  | _ => 0

/-- Actions, and the calls at which they are carried out.  The hook and the kind of node are given
by name; no call has a name that is none of theirs. -/
structure Rule where
  phase : String
  kind : Option String := none
  label : Option String := none
  /-- The one match that counts, if not all do. -/
  nth : Option Nat := none
  /-- Whether faults are caught. -/
  tolerant : Bool := false
  actions : List Action

/-- Whether a rule is one for this call. -/
def Rule.fits (r : Rule) (phase : Phase) (kind : NodeKind) (label : String) : Bool :=
  r.phase = phase.text && r.kind.all (· = kind.text) && r.label.all (· = label)

/-- The rules that fire at a call, and how often each has matched by then. -/
def select (phase : Phase) (kind : NodeKind) (label : String) :
    List Rule → List Nat → List Rule × List Nat
  | r :: rules, n :: counts =>
    let (fired, counts) := select phase kind label rules counts
    if r.fits phase kind label then
      (if r.nth.all (· = n) then r :: fired else fired, (n + 1) :: counts)
    else (fired, n :: counts)
  | _, counts => ([], counts)

/-- How a script deals with lists of annotations. -/
inductive TagRule where
  /-- Exchange every list for this one. -/
  | set (tags : List Tag)
  /-- Leave out the annotations of these names. -/
  | drop (names : List String)
  /-- Refuse every list, as the visitor of this name. -/
  | refuse (visitor : String)

/-- An entry of a script's record. -/
inductive Event where
  /-- The variable that an anchor stands for. -/
  | target (slot : VarSlot) (isFinal : Bool) (initializer : Option Expr) (isVolatile : Option Bool)
  | call (phase : Phase) (kind : NodeKind) (label : String) (depth : Nat)
      (current parent : Option NodeKind) (enclosing : Option TypeId)
  | answer (q : Question) (a : Answer)
  | caught (f : Fault)
  | offered (tags : List Tag) (depth : Nat)

/-- What a scripted visitor knows. -/
structure State where
  /-- The record, the latest entry first. -/
  events : List Event := []
  /-- How often each rule has matched. -/
  counts : List Nat
  abort : Option Abort := none

end Script

open Script in
/-- A description of a visitor. -/
structure Script where
  rules : List Rule := []
  /-- Leave the calls out of the record. -/
  quiet : Bool := false
  /-- Act in the hooks for nodes of any kind only. -/
  anyKind : Bool := false
  /-- What becomes of lists of annotations, unless the script acts for nodes of any kind. -/
  tagRule : Option TagRule := none

namespace Script

open Visit

/-- What a scripted visitor knows at first. -/
def start (s : Script) : State := { counts := s.rules.map fun _ => 0 }

variable {ν : Type}

/-- Adds an entry to the record. -/
def record (e : Event) : Visit State ν Unit :=
  modify fun s => { s with own := { s.own with events := e :: s.own.events } }

/-- Ends the traversal.  The fault only serves to end it. -/
def stop {α : Type} (a : Abort) : Visit State ν α := do
  modify fun s => { s with own := { s.own with abort := some a } }
  throw (.invalidEdit "go on" .fixed)

/-- What an action brings along, if it could be made. -/
def made {α : Type} : Except Abort α → Visit State ν α
  | .ok a => pure a
  | .error e => stop e

/-- Carries out an action, where `meaning` gives those that change the node. -/
def perform (meaning : Action → Option (Visit State ν Unit)) (kind : NodeKind) (info : Provenance)
    (a : Action) : Visit State ν Unit :=
  match a with
  | .skip => pure ()
  | .ask q => do record (.answer q (q.answer (← context)))
  | .refuse visitor => throw (.unsupportedNode visitor kind info)
  | .request r => Visit.request r
  | .markChanged => mapContext (·.markChanged)
  | .abort reason => stop reason
  | a => (meaning a).getD (stop .unsuited)

/-- Records a fault instead of failing with it. -/
def catching (w : Visit State ν Unit) : Visit State ν Unit := fun s =>
  match w s with
  | .error f t => if t.own.abort.isSome then .error f t else record (.caught f) t
  | r => r

/-- Carries out the actions of the rules that fire, and says whether the node's parts are to be
visited. -/
def hook (s : Script) (phase : Phase) (kind : NodeKind) (info : Provenance) (label : String)
    (meaning : Action → Option (Visit State ν Unit) := fun _ => none) : Visit State ν Bool := do
  let c ← context
  unless s.quiet do
    record (.call phase kind label c.depth c.current? c.parent? c.enclosingType)
  let (fired, counts) := select phase kind label s.rules (← get).own.counts
  modify fun s => { s with own := { s.own with counts } }
  for r in fired do
    for a in r.actions do
      let w := perform meaning kind info a
      if r.tolerant then catching w else w
  return !fired.any (·.actions.any Action.isSkip)

/-! ## Changes of nodes -/

/-- The changes of a declared type. -/
def onType : Action → Option (Visit State DeclaredType Unit)
  | .setTags tags => some do setNode { ← node with tags }
  | .addField field => some do
    let t ← node
    match t.pushField? ((← made field) t.id) with
    | some (t, _) => setNode t
    | none => stop .invalid
  | _ => none

/-- The changes of a field. -/
def onField : Action → Option (Visit State Field Unit)
  | .setFinal => some (attempt Field.setFinal)
  | .setVolatile => some (attempt Field.setVolatile)
  | .declare d => some do setNode ((← node).declare d)
  | _ => none

/-- The changes of a method. -/
def onMethod : Action → Option (Visit State Method Unit)
  | .setBody b => some do setNode { ← node with body := some b }
  | .addLocal v => some do setNode ((← node).addLocal (← made v))
  | .addParameter v => some do setNode ((← node).addParameter (← made v))
  | _ => none

/-- The changes of a parameter. -/
def onParameter : Action → Option (Visit State Variable Unit)
  | .setFinal => some do setNode (← node).setFinal
  | .declare d => some do setNode ((← node).declare d)
  | _ => none

/-- The changes of a block. -/
def onBlock : Action → Option (Visit State Block Unit)
  | .push s => some do
    let b ← node
    setNode { b with stmts := b.stmts ++ [s] }
  | .clear => some do setNode { ← node with stmts := [] }
  | _ => none

/-- The changes of a declared variable. -/
def onDeclared : Action → Option (Visit State Declared Unit)
  | .setFinal => some (attempt Declared.setFinal)
  | .setVolatile => some do
    match ← node with
    | .field f => attempt fun _ => .field <$> f.setVolatile
    | .localVar _ => stop .unsuited
  | .declare d => some do setNode ((← node).declare d)
  | _ => none

/-- The changes of a statement. -/
def onStmt : Action → Option (Visit State Stmt Unit)
  | .becomeStmt s => some (setNode s)
  | _ => none

/-- The changes of an expression. -/
def onExpr : Action → Option (Visit State Expr Unit)
  | .becomeExpr e => some (setNode e)
  | _ => none

/-! ## The visitor -/

/-- The label of an expression: what tells it apart from others of its kind. -/
def exprLabel : Expr → String
  | .literal _ v => v.text
  | .staticField _ f => toString f.owner ++ "." ++ toString f.index
  | .instanceField _ f _ => toString f.owner ++ "." ++ toString f.index
  | .localVar _ i => toString i
  | .parameter _ i => toString i
  | .self _ id => toString id
  | .binary _ op _ _ => op.text

section Hooks

variable (s : Script)

/-- The annotations that a script keeps of a list. -/
def keep (rule : TagRule) (tags : List Tag) : Visit State Unit (List Tag) := do
  record (.offered tags (← context).depth)
  match rule with
  | .set tags => return tags
  | .drop names =>
    if tags.any (names.contains ·.name) then
      mapContext (·.markChanged)
    return tags.filter (!names.contains ·.name)
  | .refuse visitor => throw (.unsupportedNode visitor .tag .synthetic)

/-- The hook for declared types. -/
def typeHook (phase : Phase) : Visit State DeclaredType Bool := do
  let t ← node
  s.hook phase .declaredType t.info t.name onType

/-- The hook for fields. -/
def fieldHook (phase : Phase) : Visit State Field Bool := do
  let f ← node
  s.hook phase .field f.info f.name.text onField

/-- The hook for methods. -/
def methodHook (phase : Phase) : Visit State Method Bool := do
  let m ← node
  s.hook phase .method m.info m.name onMethod

/-- The hook for parameters. -/
def parameterHook (phase : Phase) : Visit State Variable Bool := do
  let v ← node
  s.hook phase .parameter v.info v.name.text onParameter

/-- The hook for annotations. -/
def tagHook (phase : Phase) (t : Tag) : Visit State Unit Bool := s.hook phase .tag t.info t.text

/-- The hook for blocks. -/
def blockHook (phase : Phase) : Visit State Block Bool := do
  let b ← node
  s.hook phase .block b.info (toString b.stmts.length) onBlock

/-- The hook for anchors. -/
def declarationHook (phase : Phase) (slot : VarSlot) (info : Provenance) :
    Visit State Declared Bool := do
  let d ← node
  unless s.quiet do
    record (.target slot d.base.isFinal d.base.initializer? (d.field?.map (·.isVolatile)))
  s.hook phase .declaration info d.base.name.text onDeclared

/-- The hook for other statements. -/
def stmtHook (phase : Phase) : Visit State Stmt Bool := do
  let t ← node
  s.hook phase t.kind t.info t.info.text onStmt

/-- The hook for expressions. -/
def exprHook (phase : Phase) : Visit State Expr Bool := do
  let e ← node
  s.hook phase e.kind e.info (exprLabel e) onExpr

/-- The levels that the pieces of code in a script have, all together. -/
def levels : Nat := total (s.rules.map fun r => total (r.actions.map Action.levels))

/-- How many levels deeper a script may make an expression or a body.

As long as no rule with a number of its own fires, a hook does the same at the same node.  A path on
which one piece of code has come in twice then goes on by the same pieces, for ever or until such a
rule has had its number of matches, and each of these rules fires once.  So the levels on a path of
a traversal that comes to an end are bounded by those of the pieces, the numbers, and how many
numbers there are. -/
def reach : Nat :=
  let pieces := s.levels + total (s.rules.map fun r => r.nth.getD 0 + 2)
  pieces * pieces * pieces

/-- The visitor with a hook for each kind of node. -/
def typedVisitor : Visitor State where
  reach := s.reach
  visitType := s.typeHook .pre
  endVisitType := discard (s.typeHook .post)
  visitField := s.fieldHook .pre
  endVisitField := discard (s.fieldHook .post)
  visitMethod := s.methodHook .pre
  endVisitMethod := discard (s.methodHook .post)
  visitParameter := s.parameterHook .pre
  endVisitParameter := discard (s.parameterHook .post)
  visitTag := s.tagHook .pre
  endVisitTag t := discard (s.tagHook .post t)
  keepTags := s.tagRule.map keep
  visitBlock := s.blockHook .pre
  endVisitBlock := discard (s.blockHook .post)
  visitDeclaration := s.declarationHook .pre
  endVisitDeclaration slot info := discard (s.declarationHook .post slot info)
  visitStmt := s.stmtHook .pre
  endVisitStmt := discard (s.stmtHook .post)
  visitExpr := s.exprHook .pre
  endVisitExpr := discard (s.exprHook .post)

/-- The visitor with hooks for nodes of any kind only. -/
def anyKindVisitor : Visitor State where
  reach := s.reach
  visitNode kind info := s.hook .pre kind info info.text
  endVisitNode kind info := discard (s.hook .post kind info info.text)

/-- The visitor that a script describes. -/
def visitor : Visitor State := if s.anyKind then s.anyKindVisitor else s.typedVisitor

end Hooks

/-- How a scripted traversal or pass fails. -/
inductive Failure where
  | fault (f : Fault)
  | abort (a : Abort)

/-- How a traversal failed that ended with this fault and state. -/
def failure (f : Fault) (s : State) : Failure :=
  match s.abort with
  | some a => .abort a
  | none => .fault f

end Script
end DeclIR
