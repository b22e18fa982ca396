import DeclIR.Invariant
import DeclIR.Pass.Inlining
import DeclIR.Settings
import DeclIR.Text.Padding

/-!
# Pipelines

A pipeline runs its passes one after the other, each over all declared types, and may check the
program after each.  The first failure ends the run; what was changed before it stays changed.

A pass can work on the types one by one or on all of them at once.  In the second case the types
finish in an order that is not known before, and when one fails some of the others may be let be.
-/

namespace DeclIR

/-- How many types a pass changed. -/
structure PassOutcome where
  name : String
  changedTypes : Nat
deriving DecidableEq, Repr

/-- The outcomes of the passes that were run, in order. -/
structure Report where
  passes : List PassOutcome := []
deriving DecidableEq, Repr

namespace Report

/-- The number of types changed by the first pass of this name. -/
def changedTypes? (r : Report) (name : String) : Option Nat :=
  (r.passes.find? (·.name = name)).map (·.changedTypes)

/-- Whether some pass changed a type. -/
def anyChanged (r : Report) : Bool := r.passes.any (0 < ·.changedTypes)

/-- The width that names of passes are filled up to. -/
def nameWidth : Nat := 24

/-- One line for each pass. -/
def text (r : Report) : String :=
  String.join (r.passes.map fun p =>
    Text.padEnd nameWidth p.name ++ " " ++ toString p.changedTypes ++ " type(s) changed\n")

end Report

/-- The order in which `n` types finish that a pass works on at once. -/
structure FinishOrder (n : Nat) where
  positions : List Nat
  /-- Each type finishes once. -/
  perm : positions.Perm (List.range n)
  /-- Whether the type at a position is still worked on when another one has failed before. -/
  persists : Nat → Bool := fun _ => true

namespace Pass

variable {ε : Type}

/-- Runs a pass over types one after the other, up to the first failure. -/
def sequentially (p : Pass ε) : List DeclaredType → EStateM.Result ε (List DeclaredType) Nat
  | [] => .ok 0 []
  | t :: rest =>
    match p.run t with
    | .error e t => .error e (t :: rest)
    | .ok changed t =>
      match p.sequentially rest with
      | .ok n rest => .ok (changed.toNat + n) (t :: rest)
      | .error e rest => .error e (t :: rest)

/-- What has been done of a pass that works on all types at once. -/
structure Progress (ε : Type) where
  /-- The types, of which those worked on are as the pass left them. -/
  types : List DeclaredType
  changed : Nat := 0
  /-- The failure that was noticed first. -/
  failure : Option ε := none

/-- Works on the type at a position.  Once a type has failed, those that do not persist are let
be. -/
def workOn (p : Pass ε) (persists : Nat → Bool) (s : Progress ε) (i : Nat) : Progress ε :=
  if s.failure.isSome && !persists i then s
  else
    match s.types[i]? with
    | none => s
    | some t =>
      match p.run t with
      | .ok changed t => { s with types := s.types.set i t, changed := s.changed + changed.toNat }
      | .error e t => { s with types := s.types.set i t, failure := s.failure.or (some e) }

/-- Runs a pass over types that finish in the order given.  The first of them to fail decides the
failure. -/
def concurrently (p : Pass ε) (types : List DeclaredType) (order : FinishOrder types.length) :
    EStateM.Result ε (List DeclaredType) Nat :=
  let s := order.positions.foldl (p.workOn order.persists) { types }
  match s.failure with
  | some e => .error e s.types
  | none => .ok s.changed s.types

end Pass

/-- Passes to be run in order, with the settings of the run. -/
structure Pipeline (ε : Type) where
  settings : Settings
  passes : List (Pass ε) := []

namespace Pipeline

variable {ε : Type}

/-- Adds a pass behind the others. -/
def add (l : Pipeline ε) (p : Pass ε) : Pipeline ε := { l with passes := l.passes ++ [p] }

/-- Runs one pass over the types of a program and returns the number of changed ones.  The order in
which `n` types finish, should they be worked on at once, is `order n`. -/
def apply (settings : Settings) (order : (n : Nat) → FinishOrder n) (p : Pass ε) :
    EStateM ε Program Nat :=
  fun program =>
    let result :=
      if settings.parallel then p.concurrently program.types (order program.types.length)
      else p.sequentially program.types
    match result with
    | .ok n types => .ok n ⟨types⟩
    | .error e types => .error e ⟨types⟩

/-- Checks the program, if the settings ask for it. -/
def verify (settings : Settings) (raise : Fault → ε) : EStateM ε Program Unit := fun program =>
  if settings.verifyAfterEachPass then
    match program.traverse checker {} with
    | .ok _ s => .ok () s.node
    | .error f s => .error (raise f) s.node
  else .ok () program

/-- The order in which the types finish in each pass, given the number of the pass and how many
types there are. -/
abbrev Schedule := Nat → (n : Nat) → FinishOrder n

/-- The schedule in which the types finish by position. -/
def inOrder : Schedule := fun _ n => { positions := List.range n, perm := .refl _ }

/-- Runs some passes in order. -/
def runPasses (settings : Settings) (raise : Fault → ε) (schedule : Schedule) :
    List (Pass ε) → EStateM ε Program (List PassOutcome)
  | [] => pure []
  | p :: rest => do
    let changedTypes ← apply settings (schedule 0) p
    verify settings raise
    let outcomes ← runPasses settings raise (fun k => schedule (k + 1)) rest
    return ⟨p.name, changedTypes⟩ :: outcomes

/-- Runs a pipeline, where `raise` turns a fault of the program into a failure of the run. -/
def run (l : Pipeline ε) (raise : Fault → ε) (schedule : Schedule := inOrder) :
    EStateM ε Program Report := do
  return ⟨← runPasses l.settings raise schedule l.passes⟩

end Pipeline

/-- Runs the standard pipeline. -/
def optimize (settings : Settings) (schedule : Pipeline.Schedule := Pipeline.inOrder) :
    EStateM Fault Program Report :=
  Pipeline.run ⟨settings, [inlineConstants]⟩ id schedule

end DeclIR
