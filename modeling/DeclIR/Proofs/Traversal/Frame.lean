import DeclIR.Traversal.Walk
import Mathlib.Order.Defs.Unbundled
import Mathlib.Tactic.Lemma

/-!
# Where visits end

A relation between where a visit begins and where it ends that holds of the parts of a visit holds
of the whole (`Visit.Leads`).  This covers visits that fail, since what they have changed until then
stays changed.  `Visit.Ends` says in addition what holds only if the visit succeeds.
-/

namespace DeclIR

open Visit

/-! ## Element by element -/

/-- The lists are equally long, and the elements at each position are related. -/
structure Pointwise {α : Type} (R : Nat → α → α → Prop) (l l' : List α) : Prop where
  length_eq : l'.length = l.length
  getElem? : ∀ i a, l[i]? = some a → ∃ b, l'[i]? = some b ∧ R i a b

namespace Pointwise

variable {α : Type} {R S : Nat → α → α → Prop} {l l' l'' : List α}

/-- A list is related to itself by a relation that is reflexive at each position. -/
lemma refl (h : ∀ i a, R i a a) (l : List α) : Pointwise R l l :=
  ⟨rfl, fun i a ha => ⟨a, ha, h i a⟩⟩

lemma mono (h : Pointwise R l l') (hRS : ∀ i a b, R i a b → S i a b) : Pointwise S l l' where
  length_eq := h.length_eq
  getElem? i a ha := by
    obtain ⟨b, hb, hab⟩ := h.getElem? i a ha
    exact ⟨b, hb, hRS i a b hab⟩

/-- Pointwise relations compose where the relation does at each position. -/
lemma trans (htrans : ∀ i a b c, R i a b → R i b c → R i a c) (h : Pointwise R l l')
    (h' : Pointwise R l' l'') : Pointwise R l l'' where
  length_eq := h'.length_eq.trans h.length_eq
  getElem? i a ha := by
    obtain ⟨b, hb, hab⟩ := h.getElem? i a ha
    obtain ⟨c, hc, hbc⟩ := h'.getElem? i b hb
    exact ⟨c, hc, htrans i a b c hab hbc⟩

lemma cons {x y : α} (hxy : R 0 x y) (h : Pointwise (fun i => R (i + 1)) l l') :
    Pointwise R (x :: l) (y :: l') where
  length_eq := by simp [h.length_eq]
  getElem? i a ha := by
    cases i with
    | zero =>
      cases ha
      exact ⟨y, rfl, hxy⟩
    | succ i => exact h.getElem? i a ha

/-- A change at one position relates a list to the changed one. -/
lemma set {i : Nat} {a b : α} (hrefl : ∀ i a, R i a a) (ha : l[i]? = some a) (hab : R i a b) :
    Pointwise R l (l.set i b) where
  length_eq := List.length_set
  getElem? j c hc := by
    by_cases hij : i = j
    · rw [← hij] at hc ⊢
      obtain rfl := Option.some.inj (ha.symm.trans hc)
      exact ⟨b, List.getElem?_set_self (List.getElem?_eq_some_iff.mp ha).1, hab⟩
    · exact ⟨c, (List.getElem?_set_ne hij).trans hc, hrefl j c⟩

/-- Where related items are equal, related lists are equal. -/
lemma eq_of_forall (h : Pointwise R l l') (hR : ∀ i a b, R i a b → b = a) : l' = l := by
  refine List.ext_getElem? fun i => ?_
  cases ha : l[i]? with
  | some a =>
    obtain ⟨b, hb, hab⟩ := h.getElem? i a ha
    rw [hb, hR i a b hab]
  | none =>
    rw [List.getElem?_eq_none_iff] at ha ⊢
    exact h.length_eq ▸ ha

/-- What holds of each element, whatever it is related to, holds of all. -/
lemma forall_mem {P : α → Prop} (h : Pointwise R l l') (hR : ∀ i a b, R i a b → P a → P b)
    (hl : ∀ a ∈ l, P a) : ∀ b ∈ l', P b := by
  intro b hb
  obtain ⟨i, hi⟩ := List.getElem?_of_mem hb
  have hlt : i < l.length := h.length_eq ▸ (List.getElem?_eq_some_iff.mp hi).1
  obtain ⟨c, hc, hac⟩ := h.getElem? i l[i] (List.getElem?_eq_getElem hlt)
  obtain rfl := Option.some.inj (hi.symm.trans hc)
  exact hR i _ b hac (hl _ (List.getElem_mem hlt))

end Pointwise

/-! ## Where visits end -/

/-- The state that a computation ends in, whether it fails or not. -/
def endState {ε σ α : Type} : EStateM.Result ε σ α → σ
  | .ok _ s => s
  | .error _ s => s

namespace Visit

variable {σ τ ε ν μ α β : Type}

/-- Where a visit ends, whether it fails or not. -/
def after (w : Visit σ ν α) (s : Site σ ν) : Site σ ν := endState (w s)

/-- The relation holds between where the visit begins and where it ends. -/
def Leads (R : Site σ ν → Site σ ν → Prop) (w : Visit σ ν α) : Prop := ∀ s, R s (w.after s)

/-- A relation between states of the visitor, whatever the node and the context are. -/
def ByOwn (R : σ → σ → Prop) (s t : Site σ ν) : Prop := R s.own t.own

instance {R : σ → σ → Prop} [IsPreorder σ R] : IsPreorder (Site σ ν) (ByOwn R) where
  refl s := refl_of R s.own
  trans _ _ _ h h' := trans_of R h h'

lemma after_of_ok {w : Visit σ ν α} {s t : Site σ ν} {a : α} (h : w s = .ok a t) :
    w.after s = t := by
  unfold after
  rw [h]
  rfl

lemma after_of_error {w : Visit σ ν α} {s t : Site σ ν} {f : Fault} (h : w s = .error f t) :
    w.after s = t := by
  unfold after
  rw [h]
  rfl

lemma after_node_bind (f : ν → Visit σ ν β) (s : Site σ ν) :
    (node >>= f).after s = (f s.node).after s := by
  unfold after
  rw [bind_apply, node_apply]

lemma after_get_bind (f : Site σ ν → Visit σ ν β) (s : Site σ ν) :
    (get >>= f).after s = (f s).after s := by
  unfold after
  rw [bind_apply, get_apply]

/-- A relation that holds across each of two parts holds across both, in one visit. -/
lemma after_bind {R : Site σ ν → Site σ ν → Prop} (htrans : ∀ {s t u}, R s t → R t u → R s u)
    {w : Visit σ ν α} {f : α → Visit σ ν β} {s : Site σ ν} (hw : R s (w.after s))
    (hf : ∀ a, R (w.after s) ((f a).after (w.after s))) : R s ((w >>= f).after s) := by
  unfold after at hw hf ⊢
  rw [bind_apply]
  cases h : w s with
  | ok a t =>
    rw [h] at hw hf
    exact htrans hw (hf a)
  | error e t =>
    rw [h] at hw
    exact hw

/-- What a zoomed walk leaves is what it leaves below, put back. -/
lemma after_zoom (get : Site σ ν → Site τ μ) (put : Site τ μ → Site σ ν → Site σ ν)
    (w : Visit τ μ α) (s : Site σ ν) : (zoom get put w).after s = put (w.after (get s)) s := by
  unfold after zoom
  cases w (get s) <;> rfl

/-- A run over a list stops at the item that fails and keeps the items behind it. -/
lemma after_each_of_error {w : Visit σ μ Unit} {x : μ} {c : Context} {own : σ} {e : Fault}
    {t : Site σ μ} (h : w ⟨x, c, own⟩ = .error e t) (rest : List μ) :
    (each w).after ⟨x :: rest, c, own⟩ = ⟨t.node :: rest, t.context, t.own⟩ := by
  unfold after each eachSegment
  rw [eachOf, bind_apply, h]
  rfl

/-- A run over a list goes on behind an item that succeeds, from the state that it left. -/
lemma after_each_of_ok {w : Visit σ μ Unit} {x : μ} {c : Context} {own : σ} {t : Site σ μ}
    (h : w ⟨x, c, own⟩ = .ok () t) (rest : List μ) :
    (each w).after ⟨x :: rest, c, own⟩ =
      ⟨t.node :: ((each w).after ⟨rest, t.context, t.own⟩).node,
        ((each w).after ⟨rest, t.context, t.own⟩).context,
        ((each w).after ⟨rest, t.context, t.own⟩).own⟩ := by
  unfold after each eachSegment
  rw [eachOf, bind_apply, h]
  simp only [bind_apply, node_apply, pure_apply]
  cases eachOf _ rest t.context t.own <;> rfl

/-- A visit that counts the elements of a list relates each to what becomes of it.  `P own i x y`
says that `y` may be at position `i` in the place of `x` when the visitor's state is `own`. -/
lemma after_each {R : σ → σ → Prop} [IsPreorder σ R] {P : σ → Nat → μ → μ → Prop}
    {w : Visit σ μ Unit} (position : σ → Nat) (hrefl : ∀ own i x, P own i x x)
    (hmono : ∀ {a b i x y}, R a b → P a i x y → P b i x y)
    (hw : ∀ s, R s.own (w.after s).own ∧
      P (w.after s).own (position s.own) s.node (w.after s).node)
    (hposition : ∀ s t, w s = .ok () t → position t.own = position s.own + 1)
    (list : List μ) (c : Context) (own : σ) :
    R own ((each w).after ⟨list, c, own⟩).own ∧
      Pointwise (fun i => P ((each w).after ⟨list, c, own⟩).own (position own + i)) list
        ((each w).after ⟨list, c, own⟩).node := by
  induction list generalizing c own with
  | nil => exact ⟨refl_of R own, .refl (fun _ _ => hrefl ..) []⟩
  | cons x rest ih =>
    obtain ⟨hR, hP⟩ := hw ⟨x, c, own⟩
    cases h : w ⟨x, c, own⟩ with
    -- The elements behind one that fails are not visited, and each is related to itself.
    | error e t =>
      rw [after_of_error h] at hR hP
      rw [after_each_of_error h]
      exact ⟨hR, .cons hP (.refl (fun _ _ => hrefl ..) rest)⟩
    | ok a t =>
      rw [after_of_ok h] at hR hP
      obtain ⟨hR', hrest⟩ := ih t.context t.own
      -- The next element stands one position further on, as the visit of this one has been counted.
      have hnext (i : Nat) : position t.own + i = position own + (i + 1) := by
        have hstep : position t.own = position own + 1 := hposition _ _ h
        omega
      simp only [hnext] at hrest
      rw [after_each_of_ok h]
      exact ⟨trans_of R hR hR', .cons (hmono hR' hP) hrest⟩

/-- A visit that relates each element to what becomes of it does so with all elements. -/
lemma after_each_pointwise {R : σ → σ → Prop} [IsPreorder σ R] {P : μ → μ → Prop}
    {w : Visit σ μ Unit} (hrefl : ∀ x, P x x)
    (hw : ∀ s, R s.own (w.after s).own ∧ P s.node (w.after s).node)
    (list : List μ) (c : Context) (own : σ) :
    R own ((each w).after ⟨list, c, own⟩).own ∧
      Pointwise (fun _ => P) list ((each w).after ⟨list, c, own⟩).node := by
  induction list generalizing c own with
  | nil => exact ⟨refl_of R own, .refl (fun _ => hrefl) []⟩
  | cons x rest ih =>
    obtain ⟨hR, hP⟩ := hw ⟨x, c, own⟩
    cases h : w ⟨x, c, own⟩ with
    | error e t =>
      rw [after_of_error h] at hR hP
      rw [after_each_of_error h]
      exact ⟨hR, .cons hP (.refl (fun _ => hrefl) rest)⟩
    | ok a t =>
      rw [after_of_ok h] at hR hP
      obtain ⟨hR', hrest⟩ := ih t.context t.own
      rw [after_each_of_ok h]
      exact ⟨trans_of R hR hR', .cons hP hrest⟩

/-! ### Visits that succeed -/

lemma eq_ok_after {w : Visit σ ν α} {s : Site σ ν} {a : α} (h : EStateM.run' w s = some a) :
    w s = .ok a (w.after s) := by
  unfold EStateM.run' EStateM.run at h
  unfold after
  cases hrun : w s with
  | ok b t =>
    rw [hrun] at h
    cases h
    rfl
  | error e t =>
    rw [hrun] at h
    cases h

/-- A sequence succeeds exactly where both of its steps do, one after the other. -/
lemma bind_eq_ok_iff {w : Visit σ ν α} {f : α → Visit σ ν β} {s u : Site σ ν} {b : β} :
    (w >>= f) s = .ok b u ↔ ∃ a t, w s = .ok a t ∧ f a t = .ok b u := by
  rw [bind_apply]
  cases w s <;> simp [and_assoc]

lemma zoom_eq_ok_iff {get : Site σ ν → Site τ μ} {put : Site τ μ → Site σ ν → Site σ ν}
    {w : Visit τ μ α} {s u : Site σ ν} {a : α} :
    zoom get put w s = .ok a u ↔ ∃ t, w (get s) = .ok a t ∧ u = put t s := by
  unfold zoom
  cases w (get s) with
  | ok b t => simp [and_comm, eq_comm]
  | error e t => simp

/-- A walk inside a frame succeeds exactly where the walk does with the frame entered. -/
lemma inFrame_eq_ok_iff {kind : NodeKind} {slot : Slot} {w : Visit σ ν Unit} {s u : Site σ ν}
    {frame? : Option Frame} :
    inFrame kind slot w s = .ok frame? u ↔
      ∃ t, w { s with context := s.context.enter kind slot } = .ok () t ∧
        frame? = t.context.frames.head? ∧ u = { t with context := t.context.leave } := by
  rw [inFrame_apply]
  cases w { s with context := s.context.enter kind slot } with
  | ok _ t => simp [eq_comm]
  | error e t => simp

/-- A run over a list succeeds exactly where the head's segment and the run over the rest do. -/
lemma eachOf_cons_eq_ok_iff {w : Visit σ μ (List μ)} {x : μ} {rest : List μ} {c : Context}
    {own : σ} {u : Site σ (List μ)} :
    eachOf w (x :: rest) c own = .ok () u ↔
      ∃ segment s t, w ⟨x, c, own⟩ = .ok segment s ∧
        eachOf w rest s.context s.own = .ok () t ∧
        u = ⟨segment ++ t.node, t.context, t.own⟩ := by
  rw [eachOf]
  cases w ⟨x, c, own⟩ with
  | error e s => simp
  | ok segment s =>
    cases h : eachOf w rest s.context s.own with
    | error e t => simp [and_assoc, h]
    | ok _ t => simp [and_assoc, h, eq_comm]

/-! ### Relations -/

namespace Leads

section Site

variable {R : Site σ ν → Site σ ν → Prop} [IsPreorder (Site σ ν) R]

lemma pure (a : α) : Leads R (pure a : Visit σ ν α) := fun s => refl_of R s

lemma node : Leads R (node : Visit σ ν ν) := fun s => refl_of R s

/-- Leading by a preorder goes through a sequence of walks. -/
lemma bind {w : Visit σ ν α} {f : α → Visit σ ν β} (hw : Leads R w) (hf : ∀ a, Leads R (f a)) :
    Leads R (w >>= f) := by
  intro s
  exact after_bind (R := R) (trans_of R) (hw s) fun a => hf a (w.after s)

lemma node_bind {f : ν → Visit σ ν β} (hf : ∀ n, Leads R (f n)) : Leads R (Visit.node >>= f) :=
  node.bind hf

/-- Leading by a preorder goes through the hook pair of a node. -/
lemma around {pre : Visit σ ν Bool} {parts post : Visit σ ν Unit} (hpre : Leads R pre)
    (hparts : Leads R parts) (hpost : Leads R post) : Leads R (around pre parts post) := by
  unfold Visit.around
  refine hpre.bind fun descend => ?_
  cases descend with
  | true => exact hparts.bind fun _ => hpost
  | false => exact (pure ()).bind fun _ => hpost

/-- What happens after the first hook. -/
lemma pre_around (pre : Visit σ ν Bool) {parts post : Visit σ ν Unit} (hparts : Leads R parts)
    (hpost : Leads R post) (s : Site σ ν) :
    R (pre.after s) ((Visit.around pre parts post).after s) := by
  unfold after
  rw [around_apply]
  cases pre s with
  | error e t => exact refl_of R t
  | ok descend t =>
    cases descend with
    | false => exact hpost t
    | true => exact (hparts.bind fun _ => hpost) t

/-- The frame of a node does not matter to a relation that does not depend on the contexts. -/
lemma inFrame_of {kind : NodeKind} {slot : Slot} {w : Visit σ ν Unit} (hw : Leads R w)
    (hR : ∀ s c, R s { s with context := c }) : Leads R (inFrame kind slot w) := by
  have hcontext (f : Context → Context) : Leads R (mapContext f : Visit σ ν Unit) :=
    fun s => hR s (f s.context)
  have hleave : Leads R (leave : Visit σ ν (Option Frame)) := fun s => hR s s.context.leave
  exact (hcontext _).bind fun _ => hw.bind fun _ => hleave

end Site

lemma part {R : σ → σ → Prop} {x : μ} {put : μ → ν} {w : Visit σ μ α} (hw : Leads (ByOwn R) w) :
    Leads (ByOwn R) (part x put w) := by
  intro s
  unfold Visit.part
  rw [after_zoom]
  exact hw ⟨x, s.context, s.own⟩

/-- A walk that leads its own record leads the pair that keeps a second record beside it. -/
lemma beside {R : σ → σ → Prop} {S : σ × ε → σ × ε → Prop} {w : Visit σ ν α}
    (hw : Leads (ByOwn R) w) (hRS : ∀ a b e, R a b → S (a, e) (b, e)) :
    Leads (ByOwn S) (beside w : Visit (σ × ε) ν α) := by
  intro s
  unfold Visit.beside
  rw [after_zoom]
  exact hRS _ _ _ (hw ⟨s.node, s.context, s.own.1⟩)

section Own

variable {R : σ → σ → Prop} [IsPreorder σ R]

lemma setNode (n : ν) : Leads (ByOwn R) (setNode n : Visit σ ν Unit) := fun s => refl_of R s.own

lemma inFrame {kind : NodeKind} {slot : Slot} {w : Visit σ ν Unit} (hw : Leads (ByOwn R) w) :
    Leads (ByOwn R) (inFrame kind slot w) := hw.inFrame_of fun s _ => refl_of R s.own

lemma eachSegment {w : Visit σ μ (List μ)} (hw : Leads (ByOwn R) w) :
    Leads (ByOwn R) (eachSegment w) := by
  have hlist (list : List μ) (c : Context) (own : σ) :
      R own ((Visit.eachSegment w).after ⟨list, c, own⟩).own := by
    induction list generalizing c own with
    | nil => exact refl_of R own
    | cons x rest ih =>
      have hx : R own (w.after ⟨x, c, own⟩).own := hw ⟨x, c, own⟩
      unfold after at hx
      unfold after Visit.eachSegment
      simp only [eachOf]
      cases h : w ⟨x, c, own⟩ with
      | error e t =>
        rw [h] at hx
        exact hx
      | ok segment t =>
        rw [h] at hx
        have hrest := ih t.context t.own
        unfold after Visit.eachSegment at hrest
        simp only
        cases hr : eachOf w rest t.context t.own with
        | ok _ u =>
          rw [hr] at hrest
          exact trans_of R hx hrest
        | error e u =>
          rw [hr] at hrest
          exact trans_of R hx hrest
  intro s
  exact hlist s.node s.context s.own

lemma each {w : Visit σ μ Unit} (hw : Leads (ByOwn R) w) : Leads (ByOwn R) (each w) := by
  unfold Visit.each
  apply eachSegment
  exact hw.bind fun _ => node_bind fun _ => pure _

lemma forM {list : List μ} {w : μ → Visit σ ν Unit} (hw : ∀ x, Leads (ByOwn R) (w x)) :
    Leads (ByOwn R) (list.forM w) := by
  induction list with
  | nil => exact pure ()
  | cons x rest ih => exact (hw x).bind fun _ => ih

end Own
end Leads
end Visit
namespace Visit

variable {σ ν : Type}

/-- The relation holds between where a visit begins and where it ends, given whether it succeeds. -/
def Ends (R : Bool → Site σ ν → Site σ ν → Prop) (w : Visit σ ν Unit) : Prop :=
  ∀ s, match w s with
    | .ok _ t => R true s t
    | .error _ t => R false s t

namespace Ends

variable {R : Bool → Site σ ν → Site σ ν → Prop} {w parts post : Visit σ ν Unit}
  {pre : Visit σ ν Bool}

/-- A walk that ends by a relation relates its start to what it leaves, on success and on failure.
-/
lemma after (h : Ends R w) (s : Site σ ν) : ∃ succeeds, R succeeds s (w.after s) := by
  have hs := h s
  unfold Visit.after
  cases hrun : w s with
  | ok _ t =>
    rw [hrun] at hs
    exact ⟨true, hs⟩
  | error e t =>
    rw [hrun] at hs
    exact ⟨false, hs⟩

lemma of_ok (h : Ends R w) {s t : Site σ ν} (hrun : w s = .ok () t) : R true s t := by
  have hs := h s
  rwa [hrun] at hs

lemma node_bind {f : ν → Visit σ ν Unit} (hf : ∀ n, Ends R (f n)) : Ends R (Visit.node >>= f) := by
  intro s
  have hs := hf s.node s
  rw [bind_apply, node_apply]
  exact hs

/-- The relation does not depend on the contexts. -/
def Contextless (R : Bool → Site σ ν → Site σ ν → Prop) : Prop :=
  ∀ {succeeds s t} c c', R succeeds { s with context := c } t →
    R succeeds s { t with context := c' }

lemma inFrame (hR : Contextless R) (hw : Ends R w) (kind : NodeKind) (slot : Slot) :
    Ends R (do let _ ← inFrame kind slot w) := by
  intro s
  have hs := hw { s with context := s.context.enter kind slot }
  rw [bind_apply, inFrame_apply]
  cases hrun : w { s with context := s.context.enter kind slot } with
  | ok _ t =>
    rw [hrun] at hs
    exact hR _ _ hs
  | error e t =>
    rw [hrun] at hs
    exact hR _ t.context hs

lemma enclosedBy (hR : Contextless R) (hw : Ends R w) (id : TypeId) :
    Ends R (Visitor.enclosedBy id w) := by
  intro s
  have hs := hw { s with context := { s.context with enclosingType := some id } }
  unfold Visitor.enclosedBy
  simp only [bind_apply, context_apply, mapContext_apply]
  cases hrun : w { s with context := { s.context with enclosingType := some id } } with
  | ok _ t =>
    rw [hrun] at hs
    exact hR _ _ hs
  | error e t =>
    rw [hrun] at hs
    exact hR _ t.context hs

/-- What holds after the first hook, after the parts and after the second hook. -/
lemma around {S T : Site σ ν → Site σ ν → Prop} (hpre : ∀ s, S s (pre.after s))
    (hST : ∀ s t, S s t → T s t) (hparts : ∀ s t, S s t → T s (parts.after t))
    (hpost : ∀ succeeds s t, T s t → R succeeds s (post.after t))
    (hfail : ∀ s t, T s t → R false s t) : Ends R (around pre parts post) := by
  intro s
  have hs := hpre s
  have hend (t : Site σ ν) (ht : T s t) : match post t with
      | .ok _ u => R true s u
      | .error _ u => R false s u := by
    cases hrun : post t with
    | ok _ u =>
      rw [← after_of_ok hrun]
      exact hpost true s t ht
    | error e u =>
      rw [← after_of_error hrun]
      exact hpost false s t ht
  rw [around_apply]
  -- Either hook can fail, and so can the parts; each time the state is one that was reached before.
  cases hrun : pre s with
  | error e t =>
    rw [after_of_error hrun] at hs
    exact hfail s t (hST s t hs)
  | ok descend t =>
    rw [after_of_ok hrun] at hs
    cases descend with
    | false => exact hend t (hST s t hs)
    | true =>
      have ht := hparts s t hs
      simp only [bind_apply]
      cases hparts' : parts t with
      | error e u =>
        rw [after_of_error hparts'] at ht
        exact hfail s u ht
      | ok _ u =>
        rw [after_of_ok hparts'] at ht
        exact hend u ht

end Ends
end Visit

/-- Exchanging the annotations of a node leaves what does not depend on them. -/
lemma Visitor.after_inTags {σ ν π : Type} {v : Visitor σ} {get : ν → List Tag}
    {put : ν → List Tag → ν} (pr : ν → π) (hpr : ∀ n tags, pr (put n tags) = pr n) (s : Site σ ν) :
    pr ((v.inTags get put).after s).node = pr s.node := by
  unfold Visitor.inTags
  rw [after_node_bind]
  unfold after
  rw [bind_apply, part_apply]
  cases v.walkTags (get s.node) ⟨(), s.context, s.own⟩ with
  | error e t => rfl
  | ok tags t => exact hpr s.node tags

/-- The annotations of a node are exchanged at most. -/
lemma Visitor.exists_node_after_inTags {σ ν : Type} {v : Visitor σ} {get : ν → List Tag}
    {put : ν → List Tag → ν} (hput : ∀ n, put n (get n) = n) (s : Site σ ν) :
    ∃ tags, ((v.inTags get put).after s).node = put s.node tags := by
  unfold Visitor.inTags
  rw [after_node_bind]
  unfold after
  rw [bind_apply, part_apply]
  cases v.walkTags (get s.node) ⟨(), s.context, s.own⟩ with
  | error e t => exact ⟨_, (hput s.node).symm⟩
  | ok tags t => exact ⟨tags, rfl⟩

end DeclIR
