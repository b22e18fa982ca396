import DeclIR.Proofs.Traversal.Wrapping

/-!
# Records of traversals

A visitor of known conduct can record each call of a hook: what it is called for, the context that
it is given, what it does to the context, and whether it fails (`Visitor.recorded`).  The record
takes no part in the walk (`Visitor.recorded_erasesTo`), and it is there whether the walk fails or
not.

The record says which nodes are being visited: those whose first hook was called and whose second
hook has not yet returned (`openNodes`).
-/

namespace DeclIR

open Visit

variable {σ τ ν μ α : Type}

/-! ## Records -/

/-- What a hook is called for. -/
inductive Moment where
  | node (phase : Phase) (x : Node)
  /-- Annotations are to be kept or exchanged. -/
  | tags (list : List Tag)

/-- The call of a hook as it is recorded. -/
structure Encounter where
  moment : Moment
  /-- The context that the hook is given. -/
  context : Context
  /-- What the hook does to the context. -/
  acts : List Act
  /-- Why the hook fails, if it does. -/
  fault? : Option Fault

namespace Encounter

/-- The nodes being visited when the hook is called, from the innermost one outwards, given those
before. -/
def path (e : Encounter) (outer : List Node) : List Node :=
  match e.moment with
  | .node .pre x => x :: outer
  | _ => outer

/-- The nodes being visited after the call.  The second hook of a node ends the visit, if it does
not fail. -/
def close (e : Encounter) (outer : List Node) : List Node :=
  match e.moment, e.fault? with
  | .node .post _, none => (e.path outer).tail
  | _, _ => e.path outer

end Encounter

/-- The nodes being visited after these calls, from the innermost one outwards. -/
def openNodes (log : List Encounter) : List Node := log.foldl (fun outer e => e.close outer) []

/-- The open nodes behind one more encounter. -/
@[simp] lemma openNodes_append_singleton (log : List Encounter) (e : Encounter) :
    openNodes (log ++ [e]) = e.close (openNodes log) := by
  simp [openNodes]

/-- Why a visit fails, if it does. -/
def Visit.fault? (w : Visit σ ν α) (s : Site σ ν) : Option Fault :=
  match w s with
  | .ok _ _ => none
  | .error f _ => some f

lemma Visit.fault?_of_ok {w : Visit σ ν α} {s t : Site σ ν} {a : α} (h : w s = .ok a t) :
    w.fault? s = none := by
  unfold fault?
  rw [h]

lemma Visit.fault?_of_error {w : Visit σ ν α} {s t : Site σ ν} {f : Fault}
    (h : w s = .error f t) : w.fault? s = some f := by
  unfold fault?
  rw [h]

/-- A walk with a fault fails with it, in the state that it leaves. -/
lemma Visit.eq_error_after {w : Visit σ ν α} {s : Site σ ν} {f : Fault} (h : w.fault? s = some f) :
    w s = .error f (w.after s) := by
  unfold fault? at h
  unfold after
  cases hrun : w s with
  | ok a t =>
    rw [hrun] at h
    cases h
  | error g t =>
    rw [hrun] at h
    cases h
    rfl

lemma Visit.fault?_zoom (get : Site σ ν → Site τ μ) (put : Site τ μ → Site σ ν → Site σ ν)
    (w : Visit τ μ α) (s : Site σ ν) : (zoom get put w).fault? s = w.fault? (get s) := by
  unfold fault? zoom
  cases w (get s) <;> rfl

/-- Records the call of a hook. -/
def Visit.recording (acts : ν → Context → σ → List Act) (moment : ν → Moment) (w : Visit σ ν α) :
    Visit (σ × List Encounter) ν α :=
  zoom (·.map Prod.fst)
    (fun t s => ⟨t.node, t.context, (t.own, s.own.2 ++ [⟨moment s.node, s.context,
      acts s.node s.context s.own.1, w.fault? (s.map Prod.fst)⟩])⟩) w

lemma Visit.recording_erasesTo (acts : ν → Context → σ → List Act) (moment : ν → Moment)
    (w : Visit σ ν α) : (w.recording acts moment).ErasesTo Prod.fst w := by
  intro s
  unfold recording zoom
  cases w (s.map Prod.fst) <;> rfl

/-- The visitor that also records the calls of its hooks. -/
def Visitor.recorded (v : Visitor σ) (a : Conduct σ) : Visitor (σ × List Encounter) :=
  v.wrap (fun _ _ phase x w => w.recording (fun n => a.hook phase (x n)) fun n => .node phase (x n))
    fun list w => w.recording (fun _ => a.tags list) fun _ => .tags list

/-- The record takes no part in the walk. -/
theorem Visitor.recorded_erasesTo (v : Visitor σ) (a : Conduct σ) :
    (v.recorded a).ErasesTo Prod.fst v :=
  wrap_erasesTo (fun _ _ _ _ w => recording_erasesTo _ _ w) fun _ w => recording_erasesTo _ _ w

end DeclIR
