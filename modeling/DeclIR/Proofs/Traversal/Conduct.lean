import DeclIR.Proofs.Traversal.Frame
import DeclIR.Proofs.Traversal.Tree

/-!
# What visitors do to the context

A hook is given the context, but all it can do to it is to ask for an edit of the current node or to
note a change (`Act`).  What it does may depend on everything it sees; a `Conduct` says what that is
for each hook, and `Visitor.ActsBy` that a visitor does this to the context and nothing else.  The
hooks are free to change their nodes and to fail.
-/

namespace DeclIR

/-- One thing that a hook does to the context. -/
inductive Act where
  | ask (r : Request)
  | mark

/-! ## Acts -/

/-- What an act leaves in the frame of the current node. -/
def Frame.perform (f : Frame) : Act → Frame
  | .ask r => if f.slot = r.required then f.record r else f
  | .mark => f

/-- What acts leave in the frame of the current node, one after the other. -/
def Frame.performAll (f : Frame) (acts : List Act) : Frame := acts.foldl Frame.perform f

namespace Context

/-- Does one thing to the context.  A request that is refused leaves it as it was. -/
def perform (c : Context) : Act → Context
  | .ask r => match c.request r with
    | .ok c' => c'
    | .error _ => c
  | .mark => c.markChanged

/-- Does things to the context, one after the other. -/
def performAll (c : Context) (acts : List Act) : Context := acts.foldl perform c

variable (c : Context) (act : Act) (acts : List Act)

lemma depth_enter (kind : NodeKind) (slot : Slot) : (c.enter kind slot).depth = c.depth + 1 := rfl

/-- An act leaves the context or sets the flag. -/
lemma perform_eq_or_changed : c.perform act = c ∨ (c.perform act).changed = true := by
  cases act with
  | mark => exact .inr rfl
  | ask r =>
    unfold perform request
    cases c.frames with
    | nil => exact .inl rfl
    -- A request is granted where the frame is of the slot that it requires, and else it does
    -- nothing.
    | cons f outer =>
      by_cases hslot : f.slot = r.required
      · simp [hslot]
      · simp [hslot]

lemma perform_changed (h : c.changed = true) : (c.perform act).changed = true := by
  rcases perform_eq_or_changed c act with hsame | hchanged
  · rw [hsame, h]
  · exact hchanged

lemma performAll_changed (h : c.changed = true) : (c.performAll acts).changed = true := by
  unfold performAll
  induction acts generalizing c with
  | nil => exact h
  | cons act rest ih => exact ih _ (perform_changed c act h)

variable {c acts} in
/-- A context that does not count as changed is as it was before all that was done to it. -/
lemma performAll_of_changed (h : (c.performAll acts).changed = false) : c.performAll acts = c := by
  induction acts generalizing c with
  | nil => rfl
  | cons act rest ih =>
    rcases perform_eq_or_changed c act with hsame | hchanged
    · rw [performAll, List.foldl_cons, hsame] at h ⊢
      exact ih h
    · exact absurd (performAll_changed (c.perform act) rest hchanged) (Bool.eq_false_iff.mp h)

/-- An act is performed on the innermost frame. -/
lemma frames_perform : (c.perform act).frames = c.frames.modifyHead (·.perform act) := by
  cases act with
  -- A note of a change does not reach the frames.
  | mark => cases h : c.frames <;> simp [perform, markChanged, Frame.perform, h]
  | ask r =>
    unfold perform request Frame.perform
    cases h : c.frames with
    | nil => simp [h]
    | cons f outer =>
      by_cases hslot : f.slot = r.required
      · simp [hslot]
      · simp [hslot, h]

/-- Only the frame of the current node takes part in what is done to a context. -/
lemma frames_performAll :
    (c.performAll acts).frames = c.frames.modifyHead (·.performAll acts) := by
  induction acts generalizing c with
  | nil => cases h : c.frames <;> simp [performAll, Frame.performAll, h]
  | cons act rest ih =>
    show ((c.perform act).performAll rest).frames = _
    rw [ih, frames_perform]
    cases c.frames <;> rfl

end Context

/-! ## Hooks -/

/-- Something holds of each hook that is called at a node, given its phase and how its node is one
of the program. -/
structure Visitor.Hooks {σ : Type} (v : Visitor σ)
    (P : ∀ ⦃ν α : Type⦄, Phase → (ν → Node) → Visit σ ν α → Prop) : Prop where
  visitType : P .pre .type v.visitType
  endVisitType : P .post .type v.endVisitType
  visitField : P .pre .field v.visitField
  endVisitField : P .post .field v.endVisitField
  visitMethod : P .pre .method v.visitMethod
  endVisitMethod : P .post .method v.endVisitMethod
  visitParameter : P .pre .parameter v.visitParameter
  endVisitParameter : P .post .parameter v.endVisitParameter
  visitTag : ∀ t, P .pre (fun _ => .tag t) (v.visitTag t)
  endVisitTag : ∀ t, P .post (fun _ => .tag t) (v.endVisitTag t)
  visitBlock : P .pre .block v.visitBlock
  endVisitBlock : P .post .block v.endVisitBlock
  visitDeclaration : ∀ slot info, P .pre (.declaration slot info) (v.visitDeclaration slot info)
  endVisitDeclaration : ∀ slot info,
    P .post (.declaration slot info) (v.endVisitDeclaration slot info)
  visitStmt : P .pre .stmt v.visitStmt
  endVisitStmt : P .post .stmt v.endVisitStmt
  visitExpr : P .pre .expr v.visitExpr
  endVisitExpr : P .post .expr v.endVisitExpr

/-- What holds of a hook because of two others holds of each hook because of the two. -/
lemma Visitor.Hooks.imp₂ {σ : Type} {v : Visitor σ}
    {P Q R : ∀ ⦃ν α : Type⦄, Phase → (ν → Node) → Visit σ ν α → Prop}
    (h : ∀ ⦃ν α⦄ phase (x : ν → Node) (w : Visit σ ν α), P phase x w → Q phase x w → R phase x w)
    (hP : v.Hooks P) (hQ : v.Hooks Q) : v.Hooks R where
  visitType := h _ _ _ hP.visitType hQ.visitType
  endVisitType := h _ _ _ hP.endVisitType hQ.endVisitType
  visitField := h _ _ _ hP.visitField hQ.visitField
  endVisitField := h _ _ _ hP.endVisitField hQ.endVisitField
  visitMethod := h _ _ _ hP.visitMethod hQ.visitMethod
  endVisitMethod := h _ _ _ hP.endVisitMethod hQ.endVisitMethod
  visitParameter := h _ _ _ hP.visitParameter hQ.visitParameter
  endVisitParameter := h _ _ _ hP.endVisitParameter hQ.endVisitParameter
  visitTag t := h _ _ _ (hP.visitTag t) (hQ.visitTag t)
  endVisitTag t := h _ _ _ (hP.endVisitTag t) (hQ.endVisitTag t)
  visitBlock := h _ _ _ hP.visitBlock hQ.visitBlock
  endVisitBlock := h _ _ _ hP.endVisitBlock hQ.endVisitBlock
  visitDeclaration slot info := h _ _ _ (hP.visitDeclaration slot info) (hQ.visitDeclaration ..)
  endVisitDeclaration slot info :=
    h _ _ _ (hP.endVisitDeclaration slot info) (hQ.endVisitDeclaration ..)
  visitStmt := h _ _ _ hP.visitStmt hQ.visitStmt
  endVisitStmt := h _ _ _ hP.endVisitStmt hQ.endVisitStmt
  visitExpr := h _ _ _ hP.visitExpr hQ.visitExpr
  endVisitExpr := h _ _ _ hP.endVisitExpr hQ.endVisitExpr

/-- What each hook of a visitor with own state `σ` does to the context. -/
structure Conduct (σ : Type) where
  /-- Given the node, the context and the own state that the hook is called with. -/
  hook : Phase → Node → Context → σ → List Act
  /-- Given the annotations that are to be kept or exchanged. -/
  tags : List Tag → Context → σ → List Act

/-- This is all that the visit does to the context, whether it fails or not. -/
def Visit.Performs {σ ν α : Type} (acts : ν → Context → σ → List Act) (w : Visit σ ν α) : Prop :=
  ∀ s, (w.after s).context = s.context.performAll (acts s.node s.context s.own)

lemma Visit.performs_request {σ ν : Type} (r : Request) :
    (Visit.request r : Visit σ ν Unit).Performs fun _ _ _ => [.ask r] := by
  intro s
  unfold after
  simp only [request_apply, Context.performAll, List.foldl_cons, List.foldl_nil, Context.perform]
  cases s.context.request r <;> rfl

/-- The visitor does to the context what the conduct says. -/
structure Visitor.ActsBy {σ : Type} (v : Visitor σ) (a : Conduct σ) : Prop where
  hooks : v.Hooks fun _ _ phase x w => w.Performs fun n => a.hook phase (x n)
  keepTags : ∀ keep tags, v.keepTags = some keep → (keep tags).Performs fun _ => a.tags tags

/-- No hook of the visitor changes the node that it is called with. -/
def Visitor.Spares {σ : Type} (v : Visitor σ) : Prop :=
  v.Hooks fun _ _ _ _ w => ∀ s, (w.after s).node = s.node

end DeclIR
