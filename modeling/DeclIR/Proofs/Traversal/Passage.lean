import DeclIR.Proofs.Traversal.Path
import DeclIR.Proofs.Traversal.Recording

/-!
# Where recorded visits go

The record of a visit says where the visit is: on the path through the nodes that are open
(`Sound`).  A visit inside of a node comes back to the path that it began on, or fails further
inside and is stuck there (`Visit.Remains`).  The rules for these visits follow the ways in which
visits are put together.
-/

namespace DeclIR

open Visit

variable {σ τ ε ν μ α β : Type}

/-! ## What is recorded -/

/-- Whether the hook changed anything. -/
def Encounter.changes (e : Encounter) : Bool := e.acts.any e.context.grants

/-- What holds while a hook is called, in a visit that began in the context `start` and has come to
this call after those before. -/
structure Encounter.Meets (e : Encounter) (start : Context) (before : List Encounter) : Prop where
  onPath : start.OnPath e.context ((e.path (openNodes before)).map Node.kind)
  /-- The place of the node for which the hook is called decides which edits are granted, whatever
  the hook has done. -/
  grantsAt : ∃ slot, (slots ((e.path (openNodes before)).map Node.kind)).head? = some slot ∧
    ∀ acts, (e.context.performAll acts).GrantsAt slot
  /-- At each moment of the call, the context counts as changed if it did when the visit began, or a
  hook before has changed something, or this one has. -/
  changed_eq : ∀ acts, (e.context.performAll acts).changed =
    (start.changed || before.any Encounter.changes || acts.any e.context.grants)

/-- The record of a visit that began in the context `start` and is in the context `c` now. -/
structure Recorded (start c : Context) (log : List Encounter) : Prop where
  meets : ∀ before e after, log = before ++ e :: after → e.Meets start before
  changed_eq : c.changed = (start.changed || log.any Encounter.changes)

/-- A visit that began in the context `start` has made these calls, and all of them succeeded. -/
structure Sound (start c : Context) (log : List Encounter) : Prop extends
    Recorded start c log where
  onPath : start.OnPath c ((openNodes log).map Node.kind)
  succeeds : ∀ e ∈ log, e.fault? = none

/-- A visit that began in the context `start` has made these calls and failed with the fault `f`.
Either the last of them failed, or an anchor does not resolve, which is the innermost node then.
The nodes `outer` are still being visited. -/
structure Stuck (start : Context) (outer : List Node) (c : Context) (log : List Encounter)
    (f : Fault) : Prop extends Recorded start c log where
  outer : outer <:+ openNodes log
  fails : (∃ before e, log = before ++ [e] ∧ e.fault? = some f ∧ (∀ e' ∈ before, e'.fault? = none) ∧
      start.OnPath c ((openNodes log).map Node.kind)) ∨
    ∃ slot info, f = .danglingSlot slot info ∧ (∀ e ∈ log, e.fault? = none) ∧
      start.OnPath c (.declaration :: (openNodes log).map Node.kind)

/-! ## Calls of hooks -/

variable {start c : Context} {log : List Encounter} {e : Encounter}

/-- A context with nothing logged since its start is sound. -/
lemma Sound.refl (c : Context) : Sound c c [] where
  meets before e after h := by simp at h
  changed_eq := by simp
  onPath := .refl c
  succeeds := by simp

/-- A hook that is called for a node adds its call to the record. -/
lemma Recorded.append {x : Node} {outer : List Node} (h : Recorded start c log)
    (hcontext : e.context = c) (hpath : e.path (openNodes log) = x :: outer)
    (honPath : start.OnPath c ((x :: outer).map Node.kind)) :
    Recorded start (c.performAll e.acts) (log ++ [e]) := by
  have hmeets : e.Meets start log := by
    -- The call is made on the path, where its slot admits what it asks for.
    refine ⟨?_, ⟨x.kind.slot (outer.map Node.kind).head?, ?_, fun acts => ?_⟩, fun acts => ?_⟩
    · rw [hpath, hcontext]
      exact honPath
    · rw [hpath]
      rfl
    · rw [hcontext]
      exact Context.grantsAt_of_slot? ((Context.slot?_performAll _ acts).trans honPath.slot?_eq)
    · rw [Context.performAll_eq, hcontext, h.changed_eq]
  constructor
  · intro before e' after hsplit
    -- The call in question is this one, or one from before.
    rcases List.eq_nil_or_concat after with rfl | ⟨after, last, rfl⟩
    · obtain ⟨rfl, he⟩ := List.append_inj' hsplit rfl
      cases he
      exact hmeets
    · rw [List.concat_eq_append, ← List.cons_append, ← List.append_assoc] at hsplit
      exact h.meets before e' after (List.append_inj' hsplit rfl).1
  · rw [Context.performAll_eq, h.changed_eq, List.any_append, Bool.or_assoc]
    simp [Encounter.changes, hcontext]

/-! ## Visits with a record -/

/-- The visit that began in the context `start` comes from the context `c` to the context `c'` on
the same path and in the same type. -/
structure Continues (start c : Context) (log : List Encounter) (c' : Context)
    (log' : List Encounter) : Prop where
  sound : Sound start c' log'
  openNodes_eq : openNodes log' = openNodes log
  frames_eq : c'.frames = c.frames
  enclosingType_eq : c'.enclosingType = c.enclosingType

lemma Continues.refl (h : Sound start c log) : Continues start c log c log := ⟨h, rfl, rfl, rfl⟩

/-- Continuing composes along a walk. -/
lemma Continues.trans {c' c'' : Context} {log' log'' : List Encounter}
    (h : Continues start c log c' log') (h' : Continues start c' log' c'' log'') :
    Continues start c log c'' log'' where
  sound := h'.sound
  openNodes_eq := h'.openNodes_eq.trans h.openNodes_eq
  frames_eq := h'.frames_eq.trans h.frames_eq
  enclosingType_eq := h'.enclosingType_eq.trans h.enclosingType_eq

/-- In the context `c` a node of this kind has been entered for which no hook has been called. -/
structure Entered (start c : Context) (log : List Encounter) (kind : NodeKind) : Prop where
  sound : Sound start c.leave log
  frame : ∃ f, c.frames.head? = some f ∧ f.kind = kind ∧
    f.slot = kind.slot ((openNodes log).map Node.kind).head?

/-- Behind an entered frame the walk stands on the path of the nodes that are open. -/
lemma Entered.onPath {kind : NodeKind} (h : Entered start c log kind) :
    start.OnPath c (kind :: (openNodes log).map Node.kind) := by
  obtain ⟨f, hf, rfl, hslot⟩ := h.frame
  exact h.sound.onPath.cons hf hslot

/-- The node `x` has been entered when the visit was in the context `c`, and its first hook has
succeeded. -/
structure Opens (start c : Context) (log : List Encounter) (x : Node) (c' : Context)
    (log' : List Encounter) : Prop where
  sound : Sound start c' log'
  openNodes_eq : openNodes log' = x :: openNodes log
  frames_eq : c'.leave.frames = c.leave.frames
  enclosingType_eq : c'.enclosingType = c.enclosingType

/-- It stays so while its parts are visited. -/
lemma Opens.trans {x : Node} {c' c'' : Context} {log' log'' : List Encounter}
    (h : Opens start c log x c' log') (h' : Continues start c' log' c'' log'') :
    Opens start c log x c'' log'' where
  sound := h'.sound
  openNodes_eq := h'.openNodes_eq.trans h.openNodes_eq
  frames_eq := (congrArg List.tail h'.frames_eq).trans h.frames_eq
  enclosingType_eq := h'.enclosingType_eq.trans h.enclosingType_eq

section Record

variable (start) (record : τ → List Encounter)

/-- The visit is one call of a hook. -/
def Visit.Records (moment : ν → Moment) (w : Visit τ ν α) : Prop :=
  ∀ s, ∃ e : Encounter, e.moment = moment s.node ∧ e.context = s.context ∧ e.fault? = w.fault? s ∧
    record (w.after s).own = record s.own ++ [e] ∧
    (w.after s).context = s.context.performAll e.acts

/-- A visit at the site `s` ends so: if it succeeds, it goes on from there, and if it fails, it is
stuck and the nodes `outer` are still being visited.  The contexts are those that `view` gives. -/
def Visit.Keeps (view : Context → Context) (outer : List Node) (s : Site τ ν) :
    EStateM.Result Fault (Site τ ν) α → Prop
  | .ok _ t => Continues start (view s.context) (record s.own) (view t.context) (record t.own)
  | .error f t => Stuck start outer t.context (record t.own) f

/-- The visit takes place inside of a node of a kind that is admitted. -/
def Visit.Remains (admits : Option NodeKind → Prop) (w : Visit τ ν α) : Prop :=
  ∀ s, Sound start s.context (record s.own) →
    admits ((openNodes (record s.own)).map Node.kind).head? →
    Keeps start record id (openNodes (record s.own)) s (w s)

/-- The visit is one of a node that has been entered. -/
def Visit.Attends (kind : ν → NodeKind) (w : Visit τ ν Unit) : Prop :=
  ∀ s, Entered start s.context (record s.own) (kind s.node) →
    Keeps start record Context.leave (openNodes (record s.own)) s (w s)

/-- The visit is one of the node that it begins with: if it fails, it is still in this node. -/
def Visit.Enters (x : ν → Node) (w : Visit τ ν Unit) : Prop :=
  ∀ s, Sound start s.context (record s.own) →
    Keeps start record id (x s.node :: openNodes (record s.own)) s (w s)

end Record

namespace Visit

variable {record : τ → List Encounter} {admits : Option NodeKind → Prop}

/-- A hook that performs its acts and is recorded adds the encounter of its node to the record. -/
lemma recording_records {acts : ν → Context → σ → List Act} {w : Visit σ ν α}
    (hw : w.Performs acts) (moment : ν → Moment) :
    (w.recording acts moment).Records Prod.snd moment := by
  intro s
  unfold recording
  rw [after_zoom]
  exact ⟨_, rfl, rfl, (fault?_zoom ..).symm, rfl, hw (s.map Prod.fst)⟩

namespace Keeps

variable {view : Context → Context} {outer outer' : List Node}

/-- A failure inside of some open nodes is one inside of the outer ones among them. -/
lemma mono {s : Site τ ν} {r : EStateM.Result Fault (Site τ ν) α}
    (h : Keeps start record view outer s r) (houter : outer' <:+ outer) :
    Keeps start record view outer' s r := by
  cases r with
  | ok a t => exact h
  | error f t => exact { h with outer := houter.trans h.outer }

/-- Keeping goes through a sequence: a failure of the first step is one of the whole, and the second
starts where the first ended. -/
lemma bind {w : Visit τ ν α} {g : α → Visit τ ν β} {s : Site τ ν}
    (h : Keeps start record view outer s (w s))
    (hg : ∀ a t, Continues start (view s.context) (record s.own) (view t.context) (record t.own) →
      Keeps start record view outer t (g a t)) :
    Keeps start record view outer s ((w >>= g) s) := by
  rw [bind_apply]
  cases hw : w s with
  | error f t =>
    rw [hw] at h
    exact h
  | ok a t =>
    rw [hw] at h
    have ht := hg a t h
    simp only
    cases hrest : g a t with
    | error f u =>
      rw [hrest] at ht
      exact ht
    | ok b u =>
      rw [hrest] at ht
      exact h.trans ht

/-- A visit at another site, where the context and the record are the same. -/
lemma zoom {σ' : Type} {record' : σ' → List Encounter} {there : Site τ ν → Site σ' μ}
    {back : Site σ' μ → Site τ ν → Site τ ν} {w : Visit σ' μ α} {s : Site τ ν}
    (h : Keeps start record' view outer (there s) (w (there s)))
    (hthere : (there s).context = s.context ∧ record' (there s).own = record s.own)
    (hback : ∀ t, (back t s).context = t.context ∧ record (back t s).own = record' t.own) :
    Keeps start record view outer s (zoom there back w s) := by
  unfold Visit.zoom
  -- What the visit says of the context and of the record is the same on both sites.
  cases hw : w (there s) with
  | error f t =>
    rw [hw] at h
    show Stuck ..
    rw [(hback t).1, (hback t).2]
    exact h
  | ok a t =>
    rw [hw] at h
    show Continues ..
    rw [(hback t).1, (hback t).2, ← hthere.1, ← hthere.2]
    exact h

/-- The type around a node is exchanged for a visit, and given back if it succeeds. -/
lemma enclosedBy {w : Visit τ ν Unit} {s : Site τ ν} (id : TypeId)
    (hw : ∀ t : Site τ ν, t = { s with context := { s.context with enclosingType := some id } } →
      Keeps start record Context.leave outer t (w t)) :
    Keeps start record Context.leave outer s (Visitor.enclosedBy id w s) := by
  have h := hw _ rfl
  unfold Visitor.enclosedBy
  simp only [bind_apply, context_apply, mapContext_apply]
  cases hrun : w { s with context := { s.context with enclosingType := some id } } with
  | error f t =>
    -- The type is not given back, and nothing is said of it where a visit is stuck.
    rw [hrun] at h
    exact h
  | ok a t =>
    rw [hrun] at h
    exact ⟨{ h.sound with }, h.openNodes_eq, h.frames_eq, rfl⟩

/-- A node is entered for a visit and left again if it succeeds. -/
lemma inFrame {w : Visit τ ν Unit} {s : Site τ ν} {kind : NodeKind} {slot : Slot}
    (hs : Sound start s.context (record s.own))
    (hslot : kind.slot ((openNodes (record s.own)).map Node.kind).head? = slot)
    (hw : ∀ t : Site τ ν, t = { s with context := s.context.enter kind slot } →
      Entered start t.context (record t.own) kind →
      Keeps start record Context.leave outer t (w t)) :
    Keeps start record id outer s (inFrame kind slot w s) := by
  have h := hw _ rfl ⟨hs, _, rfl, rfl, hslot.symm⟩
  rw [inFrame_apply]
  cases hrun : w { s with context := s.context.enter kind slot } with
  | error f t =>
    rw [hrun] at h
    exact h
  | ok a t =>
    rw [hrun] at h
    exact h

end Keeps

/-! ### Calls of hooks -/

namespace Records

/-- A hook that is called for the node `x` adds its call to the record, and does nothing outside of
the node's frame. -/
lemma call {moment : ν → Moment} {w : Visit τ ν α} (hw : w.Records record moment)
    {s : Site τ ν} {x : Node} {outer : List Node}
    (hs : Recorded start s.context (record s.own))
    (hpath : ∀ e : Encounter, e.moment = moment s.node →
      e.path (openNodes (record s.own)) = x :: outer)
    (honPath : start.OnPath s.context ((x :: outer).map Node.kind)) :
    ∃ e : Encounter, e.moment = moment s.node ∧ e.fault? = w.fault? s ∧
      record (w.after s).own = record s.own ++ [e] ∧
      (w.after s).context = s.context.performAll e.acts ∧
      Recorded start (w.after s).context (record (w.after s).own) ∧
      start.OnPath (w.after s).context ((x :: outer).map Node.kind) := by
  obtain ⟨e, hmoment, hcontext, hfault, hlog, hleft⟩ := hw s
  refine ⟨e, hmoment, hfault, hlog, hleft, ?_, ?_⟩
  · rw [hleft, hlog]
    exact hs.append hcontext (hpath e hmoment) honPath
  · rw [hleft]
    exact honPath.performAll

/-- The first hook of a node that has been entered. -/
lemma opens {x : ν → Node} {pre : Visit τ ν α}
    (hpre : pre.Records record fun n => .node .pre (x n)) {s : Site τ ν}
    (hs : Entered start s.context (record s.own) (x s.node).kind) :
    (∀ a t, pre s = .ok a t →
      Opens start s.context (record s.own) (x s.node) t.context (record t.own)) ∧
    ∀ f t, pre s = .error f t →
      Stuck start (x s.node :: openNodes (record s.own)) t.context (record t.own) f := by
  have hpath (e : Encounter) (hmoment : e.moment = .node .pre (x s.node)) :
      e.path (openNodes (record s.own)) = x s.node :: openNodes (record s.own) := by
    rw [Encounter.path, hmoment]
  obtain ⟨e, hmoment, hfault, hlog, hleft, hrecorded, honPath⟩ :=
    hpre.call { hs.sound.toRecorded with } hpath hs.onPath
  -- Behind the hook the node is open, whether the hook has failed or not.
  have hopen : openNodes (record (pre.after s).own) = x s.node :: openNodes (record s.own) := by
    rw [hlog, openNodes_append_singleton, Encounter.close, hmoment, hpath e hmoment]
  rw [← hopen] at honPath
  constructor
  · intro a t hrun
    rw [after_of_ok hrun] at hopen hrecorded honPath hleft hlog
    rw [fault?_of_ok hrun] at hfault
    refine ⟨⟨hrecorded, honPath, ?_⟩, hopen, ?_, ?_⟩
    · rw [hlog, List.forall_mem_append, List.forall_mem_singleton]
      exact ⟨hs.sound.succeeds, hfault⟩
    · rw [hleft, Context.frames_leave_performAll]
    · rw [hleft, Context.performAll_eq]
  · -- The node is open although the hook has failed.
    intro f t hrun
    rw [after_of_error hrun] at hopen hrecorded honPath hlog
    rw [fault?_of_error hrun] at hfault
    exact ⟨hrecorded, hopen ▸ List.suffix_rfl,
      .inl ⟨record s.own, e, hlog, hfault, hs.sound.succeeds, honPath⟩⟩

/-- The second hook of a node whose first one was called at the site `s`. -/
lemma closes {y : ν → Node} {post : Visit τ ν Unit}
    (hpost : post.Records record fun n => .node .post (y n)) {x : Node} {s t : Site τ ν}
    (ht : Opens start s.context (record s.own) x t.context (record t.own)) :
    Keeps start record Context.leave (x :: openNodes (record s.own)) s (post t) := by
  have hpath (e : Encounter) (hmoment : e.moment = .node .post (y t.node)) :
      e.path (openNodes (record t.own)) = x :: openNodes (record s.own) := by
    rw [Encounter.path, hmoment, ht.openNodes_eq]
  have honPath := ht.sound.onPath
  rw [ht.openNodes_eq] at honPath
  obtain ⟨e, hmoment, hfault, hlog, hleft, hrecorded, honPath⟩ :=
    hpost.call ht.sound.toRecorded hpath honPath
  cases hrun : post t with
  | ok _ u =>
    rw [after_of_ok hrun] at hrecorded honPath hleft hlog
    rw [fault?_of_ok hrun] at hfault
    -- The hook has succeeded, so the node is not open any more.
    have hclose : openNodes (record u.own) = openNodes (record s.own) := by
      rw [hlog, openNodes_append_singleton, Encounter.close, hmoment, hfault, hpath e hmoment,
        List.tail_cons]
    refine ⟨⟨{ hrecorded with }, ?_, ?_⟩, hclose, ?_, ?_⟩
    · rw [hclose]
      exact honPath.leave
    · rw [hlog, List.forall_mem_append, List.forall_mem_singleton]
      exact ⟨ht.sound.succeeds, hfault⟩
    · rw [hleft, Context.frames_leave_performAll, ht.frames_eq]
    · show u.context.enclosingType = s.context.enclosingType
      rw [hleft, Context.performAll_eq, ht.enclosingType_eq]
  -- A hook that fails leaves the node open, and its call is the last one.
  | error f u =>
    rw [after_of_error hrun] at hrecorded honPath hlog
    rw [fault?_of_error hrun] at hfault
    have hopen : openNodes (record u.own) = x :: openNodes (record s.own) := by
      rw [hlog, openNodes_append_singleton, Encounter.close, hmoment, hfault, hpath e hmoment]
    rw [← hopen] at honPath
    exact ⟨hrecorded, hopen ▸ List.suffix_rfl,
      .inl ⟨record t.own, e, hlog, hfault, ht.sound.succeeds, honPath⟩⟩

end Records

/-- The visit of a node that has been entered: its two hooks, and its parts in between. -/
lemma Keeps.around {x y : ν → Node} {pre : Visit τ ν Bool} {parts post : Visit τ ν Unit}
    {s : Site τ ν} (hpre : pre.Records record fun n => .node .pre (x n))
    (hparts : parts.Remains start record fun kind? => kind? = some (x s.node).kind)
    (hpost : post.Records record fun n => .node .post (y n))
    (hs : Entered start s.context (record s.own) (x s.node).kind) :
    Keeps start record Context.leave (x s.node :: openNodes (record s.own)) s
      (around pre parts post s) := by
  obtain ⟨hok, herror⟩ := hpre.opens hs
  rw [around_apply]
  cases hrun : pre s with
  | error f t => exact herror f t hrun
  -- A node whose first hook fails is not left.
  | ok descend t =>
    have ht := hok descend t hrun
    cases descend with
    | false =>
      -- The parts are left out, but the second hook is called.
      exact hpost.closes ht
    | true =>
      have hinner := hparts t ht.sound (by rw [ht.openNodes_eq]; rfl)
      simp only [bind_apply]
      cases hrun' : parts t with
      | error f u =>
        rw [hrun', ht.openNodes_eq] at hinner
        exact hinner
      | ok _ u =>
        rw [hrun'] at hinner
        exact hpost.closes (ht.trans hinner)

namespace Attends

lemma pure {kind : ν → NodeKind} : (pure () : Visit τ ν Unit).Attends start record kind :=
  fun _ hs => Continues.refl hs.sound

/-- The hook pair of a node attends to it: the opening hook is recorded first, and the closing one
finds the same frames. -/
lemma around {x y : ν → Node} {pre : Visit τ ν Bool} {parts post : Visit τ ν Unit}
    (hpre : pre.Records record fun n => .node .pre (x n))
    (hparts : ∀ n, parts.Remains start record fun kind? => kind? = some (x n).kind)
    (hpost : post.Records record fun n => .node .post (y n)) :
    (around pre parts post).Attends start record fun n => (x n).kind :=
  fun s hs => (Keeps.around hpre (hparts s.node) hpost hs).mono (List.suffix_cons ..)

/-- A visit of a node takes place inside of the node around it. -/
lemma inFrame {kind : ν → NodeKind} {w : Visit τ ν Unit} (hw : w.Attends start record kind)
    {slot : Slot} {s : Site τ ν} (hs : Sound start s.context (record s.own))
    (hslot : (kind s.node).slot ((openNodes (record s.own)).map Node.kind).head? = slot) :
    Keeps start record id (openNodes (record s.own)) s (inFrame (kind s.node) slot w s) :=
  .inFrame hs hslot fun t ht h => by
    subst ht
    exact hw _ h

end Attends

namespace Remains

/-- A walk remains under any condition on the kinds that is wider. -/
lemma weaken {admits' : Option NodeKind → Prop} {w : Visit τ ν α}
    (hw : w.Remains start record admits)
    (h : ∀ kind?, admits' kind? → admits kind?) : w.Remains start record admits' :=
  fun s hs hkind => hw s hs (h _ hkind)

lemma pure (a : α) : (pure a : Visit τ ν α).Remains start record admits :=
  fun _ hs _ => Continues.refl hs

lemma node : (node : Visit τ ν ν).Remains start record admits := fun _ hs _ => Continues.refl hs

lemma setNode (n : ν) : (setNode n : Visit τ ν Unit).Remains start record admits :=
  fun _ hs _ => Continues.refl hs

/-- A visit goes on inside of the same node. -/
lemma bind_at {w : Visit τ ν α} {g : α → Visit τ ν β} {s : Site τ ν}
    (hkind : admits ((openNodes (record s.own)).map Node.kind).head?)
    (hw : Keeps start record id (openNodes (record s.own)) s (w s))
    (hg : ∀ a, (g a).Remains start record admits) :
    Keeps start record id (openNodes (record s.own)) s ((w >>= g) s) := by
  refine hw.bind fun a t ht => ?_
  rw [← ht.openNodes_eq] at hkind ⊢
  exact hg a t ht.sound hkind

/-- Remaining goes through a sequence of walks. -/
lemma bind {w : Visit τ ν α} {g : α → Visit τ ν β} (hw : w.Remains start record admits)
    (hg : ∀ a, (g a).Remains start record admits) : (w >>= g).Remains start record admits :=
  fun s hs hkind => bind_at hkind (hw s hs hkind) hg

lemma node_bind {g : ν → Visit τ ν β} (hg : ∀ n, (g n).Remains start record admits) :
    (Visit.node >>= g).Remains start record admits := node.bind hg

/-- A node of a kind that depends on the node is entered, visited and left. -/
lemma node_inFrame {kind : ν → NodeKind} {slot : Slot} {w : Visit τ ν Unit}
    {g : Option Frame → Visit τ ν β} (hw : w.Attends start record kind)
    (hslot : ∀ n kind?, admits kind? → (kind n).slot kind? = slot)
    (hg : ∀ frame?, (g frame?).Remains start record admits) :
    (Visit.node >>= fun n => inFrame (kind n) slot w >>= g).Remains start record admits := by
  intro s hs hkind
  rw [bind_apply, node_apply]
  exact bind_at hkind (hw.inFrame hs (hslot s.node _ hkind)) hg

/-- A node of a kind that is known is entered, visited and left. -/
lemma inFrame {kind : NodeKind} {slot : Slot} {w : Visit τ ν Unit}
    (hw : w.Attends start record fun _ => kind)
    (hslot : ∀ kind?, admits kind? → kind.slot kind? = slot) :
    (do let _ ← inFrame kind slot w).Remains start record admits :=
  fun _ hs hkind => bind_at hkind (hw.inFrame hs (hslot _ hkind)) fun _ => pure ()

/-- A visit at another site, where the context and the record are the same. -/
lemma zoom {σ' : Type} {record' : σ' → List Encounter} {there : Site τ ν → Site σ' μ}
    {back : Site σ' μ → Site τ ν → Site τ ν} {w : Visit σ' μ α}
    (hw : w.Remains start record' admits)
    (hthere : ∀ s, (there s).context = s.context ∧ record' (there s).own = record s.own)
    (hback : ∀ t s, (back t s).context = t.context ∧ record (back t s).own = record' t.own) :
    (zoom there back w).Remains start record admits := by
  intro s hs hkind
  have h := hw (there s)
  rw [(hthere s).1, (hthere s).2] at h
  exact (h hs hkind).zoom (hthere s) fun t => hback t s

lemma part {w : Visit τ μ α} (hw : w.Remains start record admits) (x : μ) (put : μ → ν) :
    (part x put w).Remains start record admits :=
  hw.zoom (fun _ => ⟨rfl, rfl⟩) fun _ _ => ⟨rfl, rfl⟩

lemma beside {w : Visit τ ν α} (hw : w.Remains start record admits) :
    (beside w : Visit (τ × ε) ν α).Remains start (fun own => record own.1) admits :=
  hw.zoom (fun _ => ⟨rfl, rfl⟩) fun _ _ => ⟨rfl, rfl⟩

/-- A run that replaces each item by a segment remains where it started. -/
lemma eachSegment {w : Visit τ μ (List μ)} (hw : w.Remains start record admits) :
    (eachSegment w).Remains start record admits := by
  have hlist (list : List μ) (c : Context) (own : τ) (hs : Sound start c (record own))
      (hkind : admits ((openNodes (record own)).map Node.kind).head?) :
      Keeps start record id (openNodes (record own)) (⟨list, c, own⟩ : Site τ (List μ))
        (eachOf w list c own) := by
    -- By induction on the list: a failing item leaves what is open, and another one what was open
    -- before.
    induction list generalizing c own with
    | nil => exact Continues.refl hs
    | cons x rest ih =>
      have hx := hw ⟨x, c, own⟩ hs hkind
      unfold eachOf
      cases hrun : w ⟨x, c, own⟩ with
      | error f t =>
        rw [hrun] at hx
        exact hx
      | ok segment t =>
        rw [hrun] at hx
        have hopen : openNodes (record t.own) = openNodes (record own) := hx.openNodes_eq
        have hrest := ih t.context t.own hx.sound (hopen ▸ hkind)
        simp only
        cases hrun' : eachOf w rest t.context t.own with
        | error f u =>
          rw [hrun', hopen] at hrest
          exact hrest
        | ok _ u =>
          rw [hrun'] at hrest
          exact hx.trans hrest
  intro s hs hkind
  exact hlist s.node s.context s.own hs hkind

/-- A run over a list remains where it started. -/
lemma each {w : Visit τ μ Unit} (hw : w.Remains start record admits) :
    (each w).Remains start record admits :=
  eachSegment (hw.bind fun _ => node_bind fun _ => pure _)

lemma forM {w : μ → Visit τ ν Unit} (hw : ∀ n, (w n).Remains start record admits) (list : List μ) :
    (list.forM w).Remains start record admits := by
  induction list with
  | nil => exact pure ()
  | cons n rest ih => exact (hw n).bind fun _ => ih

end Remains

namespace Enters

/-- A visit of a node takes place inside of any node. -/
lemma remains {x : ν → Node} {w : Visit τ ν Unit} (hw : w.Enters start record x) :
    w.Remains start record admits := fun s hs _ => (hw s hs).mono (List.suffix_cons ..)

lemma node_bind {x : ν → Node} {g : ν → Visit τ ν Unit} (hg : ∀ n, (g n).Enters start record x) :
    (Visit.node >>= g).Enters start record x := fun s hs => hg s.node s hs

/-- A node that is always in the same kind of place is entered, visited and left. -/
lemma inFrame {kind : NodeKind} {slot : Slot} {x : ν → Node} {w : Visit τ ν Unit}
    (hw : ∀ s : Site τ ν, Entered start s.context (record s.own) kind →
      Keeps start record Context.leave (x s.node :: openNodes (record s.own)) s (w s))
    (hslot : ∀ outer?, kind.slot outer? = slot) :
    (do let _ ← inFrame kind slot w).Enters start record x := by
  intro s hs
  refine (Keeps.inFrame hs (hslot _) ?_).bind fun _ _ ht => .refl ht.sound
  rintro _ rfl hentered
  exact hw _ hentered

end Enters

/-- A hook that is not the first or the second one of a node is called inside of that node. -/
lemma Records.remains {list : List Tag} {w : Visit τ ν α}
    (hw : w.Records record fun _ => .tags list) : w.Remains start record NodeKind.IsFixed := by
  rintro s hs ⟨kind, hkind, hfixed⟩
  obtain ⟨kinds, hkinds⟩ := List.head?_eq_some_iff.mp hkind
  obtain ⟨x, outer, houter, rfl, rfl⟩ := List.map_eq_cons_iff.mp hkinds
  have hpath (e : Encounter) (hmoment : e.moment = .tags list) :
      e.path (openNodes (record s.own)) = x :: outer := by
    rw [Encounter.path, hmoment, houter]
  have honPath := hs.onPath
  rw [houter] at honPath
  have hslot : s.context.slot? = some .fixed := honPath.slot?_eq.trans (congrArg some (hfixed _))
  -- The slot of this node is fixed, so no request of the hook is granted and the frame stays.
  obtain ⟨e, hmoment, hfault, hlog, hleft, hrecorded, honPath⟩ :=
    hw.call hs.toRecorded hpath honPath
  have hopen : openNodes (record (w.after s).own) = openNodes (record s.own) := by
    rw [hlog, openNodes_append_singleton, Encounter.close, hmoment, hpath e hmoment, houter]
  rw [← houter, ← hopen] at honPath
  cases hrun : w s with
  | ok a t =>
    rw [after_of_ok hrun] at hopen hrecorded honPath hleft hlog
    rw [fault?_of_ok hrun] at hfault
    refine ⟨⟨hrecorded, honPath, ?_⟩, hopen, ?_, ?_⟩
    · rw [hlog, List.forall_mem_append, List.forall_mem_singleton]
      exact ⟨hs.succeeds, hfault⟩
    · rw [id, id, hleft, Context.frames_performAll_of_fixed _ hslot]
    · rw [id, id, hleft, Context.performAll_eq]
  | error f t =>
    rw [after_of_error hrun] at hopen hrecorded honPath hlog
    rw [fault?_of_error hrun] at hfault
    exact ⟨hrecorded, hopen ▸ List.suffix_rfl,
      .inl ⟨record s.own, e, hlog, hfault, hs.succeeds, honPath⟩⟩

/-- With a further state, of which the visit does not know, the record is the same. -/
lemma Records.beside {moment : ν → Moment} {w : Visit τ ν α} (hw : w.Records record moment) :
    (beside w : Visit (τ × ε) ν α).Records (fun own => record own.1) moment := by
  intro s
  obtain ⟨e, hmoment, hcontext, hfault, hlog, hleft⟩ := hw ⟨s.node, s.context, s.own.1⟩
  unfold Visit.beside
  rw [after_zoom, fault?_zoom]
  exact ⟨e, hmoment, hcontext, hfault, hlog, hleft⟩

end Visit

end DeclIR
