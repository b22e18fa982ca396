import DeclIR.Proofs.Traversal.Conduct

/-!
# Paths

The frames of a context are the nodes on the path to the current one.  The place of each node is
given by its kind and by the kind of the node around it (`NodeKind.slot`), and what a hook may do to
the context depends on the place of the current node alone.
-/

namespace DeclIR

/-! ## Paths -/

/-- The kind of place that a node of this kind is in, given the kind of the node around it.  Only a
block can be in different places: in another block, or in a statement or method. -/
def NodeKind.slot (outer? : Option NodeKind) : NodeKind → Slot
  | declaredType | field | method | parameter | tag => .fixed
  | block => if outer? = some .block then .statement else .fixed
  | declaration | exprStmt | ret | branch => .statement
  | literal | fieldRef | localRef | parameterRef | self | binary => .expression

/-- The places of the nodes on a path, from the innermost one outwards. -/
def slots : List NodeKind → List Slot
  | [] => []
  | kind :: outer => kind.slot outer.head? :: slots outer

/-- A node of this kind stays where it is, whatever is around it. -/
def NodeKind.IsFixed (kind? : Option NodeKind) : Prop :=
  ∃ kind, kind? = some kind ∧ ∀ outer?, kind.slot outer? = .fixed

lemma Stmt.slot_kind (x : Stmt) : x.kind.slot (some .block) = .statement := by
  cases x <;> rfl

lemma Expr.slot_kind (e : Expr) (outer? : Option NodeKind) : e.kind.slot outer? = .expression := by
  cases e <;> rfl

namespace Frame

variable (f : Frame) (act : Act) (acts : List Act)

/-- What a hook does to a frame leaves its kind and place. -/
lemma perform_place : (f.perform act).kind = f.kind ∧ (f.perform act).slot = f.slot := by
  cases act with
  | mark => exact ⟨rfl, rfl⟩
  | ask r =>
    have hrecord : (f.record r).kind = f.kind ∧ (f.record r).slot = f.slot := by
      cases r <;> exact ⟨rfl, rfl⟩
    by_cases h : f.slot = r.required
    · simpa [perform, h] using hrecord
    · simp [perform, h]

lemma performAll_place : (f.performAll acts).kind = f.kind ∧ (f.performAll acts).slot = f.slot := by
  induction acts generalizing f with
  | nil => exact ⟨rfl, rfl⟩
  | cons act rest ih =>
    obtain ⟨hkind, hslot⟩ := ih (f.perform act)
    exact ⟨hkind.trans (f.perform_place act).1, hslot.trans (f.perform_place act).2⟩

end Frame

namespace Context

/-- From the context `start` one has come to `c` through nodes of these kinds, from the innermost
one outwards. -/
def OnPath (start c : Context) (kinds : List NodeKind) : Prop :=
  ∃ inner, c.frames = inner ++ start.frames ∧ inner.map (·.kind) = kinds ∧
    inner.map (·.slot) = slots kinds

/-- Whether an act changes anything. -/
def grants (c : Context) : Act → Bool
  | .ask r => c.slot? = some r.required
  | .mark => true

/-- An edit of the current node is granted if it is one for this kind of place.  Another one is
refused, and the context stays as it was. -/
def GrantsAt (c : Context) (slot : Slot) : Prop :=
  ∀ r, (slot = r.required → c.request r = .ok (c.perform (.ask r))) ∧
    (slot ≠ r.required → c.request r = .error (.invalidEdit r.text r.required) ∧
      c.perform (.ask r) = c)

variable {start c : Context} {kinds : List NodeKind}

lemma OnPath.refl (c : Context) : c.OnPath c [] := ⟨[], rfl, rfl, rfl⟩

/-- The frame of a node that is entered is at the end of the path. -/
lemma OnPath.cons {f : Frame} (h : start.OnPath c.leave kinds) (hf : c.frames.head? = some f)
    (hslot : f.slot = f.kind.slot kinds.head?) : start.OnPath c (f.kind :: kinds) := by
  obtain ⟨inner, hleave, rfl, hslots⟩ := h
  obtain ⟨outer, hframes⟩ := List.head?_eq_some_iff.mp hf
  have houter : outer = inner ++ start.frames := by
    rw [← hleave, leave, hframes, List.tail_cons]
  refine ⟨f :: inner, ?_, rfl, ?_⟩
  · rw [hframes, houter, List.cons_append]
  · rw [List.map_cons, hslots, hslot, slots]

/-- The path without the current node. -/
lemma OnPath.leave {kind : NodeKind} (h : start.OnPath c (kind :: kinds)) :
    start.OnPath c.leave kinds := by
  obtain ⟨inner, hframes, hkinds, hslots⟩ := h
  obtain ⟨f, inner, rfl, -, rfl⟩ := List.map_eq_cons_iff.mp hkinds
  refine ⟨inner, ?_, rfl, (List.cons.inj hslots).2⟩
  rw [Context.leave, hframes, List.cons_append, List.tail_cons]

/-- The place of the current node is the one that its kind says. -/
lemma OnPath.slot?_eq {kind : NodeKind} (h : start.OnPath c (kind :: kinds)) :
    c.slot? = some (kind.slot kinds.head?) := by
  obtain ⟨inner, hframes, hkinds, hslots⟩ := h
  obtain ⟨f, inner, rfl, rfl, rfl⟩ := List.map_eq_cons_iff.mp hkinds
  have hslot : f.slot = f.kind.slot (inner.map (·.kind)).head? := (List.cons.inj hslots).1
  rw [slot?, hframes, List.cons_append, List.head?_cons, Option.map_some, hslot]

/-! ## What acts do -/

variable (c) (act : Act) (acts : List Act)

/-- An act is noted in the frame of the current node, and the context counts as changed from one
that is granted on. -/
lemma perform_eq : c.perform act =
    ⟨c.frames.modifyHead (·.perform act), c.enclosingType, c.changed || c.grants act⟩ := by
  rw [← frames_perform]
  cases act with
  | mark => simp [perform, markChanged, grants]
  | ask r =>
    obtain ⟨frames, enclosingType, changed⟩ := c
    unfold perform request grants slot?
    cases frames with
    | nil => simp
    | cons f outer =>
      by_cases h : f.slot = r.required
      · simp [h]
      · simp [h]

lemma slot?_perform : (c.perform act).slot? = c.slot? := by
  rw [perform_eq, slot?, slot?]
  cases c.frames with
  | nil => rfl
  | cons f outer => simp [(f.perform_place act).2]

/-- Acts change the innermost frame and the flag only. -/
lemma performAll_eq : c.performAll acts =
    ⟨c.frames.modifyHead (·.performAll acts), c.enclosingType,
      c.changed || acts.any c.grants⟩ := by
  rw [← frames_performAll]
  induction acts generalizing c with
  | nil => simp [performAll]
  | cons act rest ih =>
    -- Which edits are granted depends on the place of the node, and no act moves the node.
    have hgrants : (c.perform act).grants = c.grants := by
      funext act'
      cases act' with
      | mark => rfl
      | ask r => rw [grants, grants, slot?_perform]
    show (c.perform act).performAll rest = _
    rw [ih, hgrants, perform_eq]
    simp [performAll, perform_eq, Bool.or_assoc]

lemma slot?_performAll : (c.performAll acts).slot? = c.slot? := by
  rw [performAll_eq, slot?, slot?]
  cases c.frames with
  | nil => rfl
  | cons f outer => simp [(f.performAll_place acts).2]

/-- Acts at a node leave the frames around it. -/
lemma frames_leave_performAll : (c.performAll acts).leave.frames = c.leave.frames := by
  rw [performAll_eq, leave, leave]
  cases c.frames <;> rfl

variable {c}

/-- No edit is one for a node that stays where it is. -/
lemma frames_performAll_of_fixed (h : c.slot? = some .fixed) :
    (c.performAll acts).frames = c.frames := by
  induction acts generalizing c with
  | nil => rfl
  | cons act rest ih =>
    have hframes : (c.perform act).frames = c.frames := by
      unfold slot? at h
      obtain ⟨f, hf, hslot⟩ := Option.map_eq_some_iff.mp h
      obtain ⟨outer, hc⟩ := List.head?_eq_some_iff.mp hf
      rw [frames_perform, hc, List.modifyHead_cons]
      cases act with
      | mark => rfl
      | ask r => cases r <;> simp [Frame.perform, Request.required, hslot]
    exact (ih ((slot?_perform c act).trans h)).trans hframes

lemma grantsAt_of_slot? {slot : Slot} (h : c.slot? = some slot) : c.GrantsAt slot := by
  unfold slot? at h
  obtain ⟨f, hf, rfl⟩ := Option.map_eq_some_iff.mp h
  obtain ⟨outer, hframes⟩ := List.head?_eq_some_iff.mp hf
  intro r
  unfold perform request
  rw [hframes]
  by_cases hslot : f.slot = r.required
  · simp [hslot]
  · simp [hslot]

variable {acts} in
/-- What a hook does stays in the frame of the current node. -/
lemma OnPath.performAll {kind : NodeKind} (h : start.OnPath c (kind :: kinds)) :
    start.OnPath (c.performAll acts) (kind :: kinds) := by
  obtain ⟨inner, hframes, hkinds, hslots⟩ := h
  obtain ⟨f, inner, rfl, hkind, hkinds⟩ := List.map_eq_cons_iff.mp hkinds
  refine ⟨f.performAll acts :: inner, ?_, ?_, ?_⟩
  · rw [frames_performAll, hframes]
    rfl
  · rw [List.map_cons, (f.performAll_place acts).1, hkind, hkinds]
  · rw [← hslots, List.map_cons, List.map_cons, (f.performAll_place acts).2]

end Context

end DeclIR
