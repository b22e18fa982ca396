import DeclIR.Proofs.Pipeline.Repetition

/-!
# Inlining until nothing changes

A constant that is initialized from another one has no literal before a run that gives it one, so a
single run need not inline all there is to inline.  But each run that changes something after a run
has such a constant from the run before it, and no run takes a literal away.  So there are at most
as many changing runs as there are constants whose initializer is no literal, and one more
(`inlineConstants_settles`).
-/

namespace DeclIR

/-! ## Runs in a row -/

namespace Pass

variable {ε : Type} {p : Pass ε} {t t' last : DeclaredType} {k : Nat}

/-- Runs a pass the given number of times in a row, and collects what it says about changes. -/
def times (p : Pass ε) : Nat → EStateM ε DeclaredType (List Bool)
  | 0 => pure []
  | n + 1 => do
    let changed ← p.run
    let rest ← p.times n
    return changed :: rest

/-- However often a pass is run in a row, it succeeds, it says of the first `k` runs that they
changed the type and of all others that they did not, and it leaves `last` after the first `k`. -/
def Settles (p : Pass ε) (t last : DeclaredType) (k : Nat) : Prop :=
  ∀ n, ∃ u, p.times n t = .ok (List.replicate (min n k) true ++ List.replicate (n - k) false) u ∧
    (k ≤ n → u = last)

/-- To run a pass once more is to run it on what the first run leaves. -/
lemma times_succ {changed : Bool} (h : p.run t = .ok changed t') (n : Nat) :
    p.times (n + 1) t = match p.times n t' with
      | .ok rest u => .ok (changed :: rest) u
      | .error e u => .error e u := by
  rw [times, EStateM_bind_apply, h]
  simp only [EStateM_bind_apply]
  cases p.times n t' <;> rfl

/-- A pass that has nothing to change has settled. -/
lemma settles_of_unchanged (h : p.run t = .ok false t) : p.Settles t t 0 := by
  intro n
  refine ⟨t, ?_, fun _ => rfl⟩
  rw [Nat.min_zero, Nat.sub_zero, List.replicate_zero, List.nil_append]
  induction n with
  | zero => rfl
  | succ n ih => rw [times_succ h, ih, List.replicate_succ]

/-- A pass that changes something settles one run later than on what it leaves. -/
lemma Settles.of_changed (h : p.run t = .ok true t') (hsettles : p.Settles t' last k) :
    p.Settles t last (k + 1) := by
  intro n
  cases n with
  | zero =>
    refine ⟨t, ?_, fun hk => absurd hk (Nat.not_succ_le_zero k)⟩
    rw [Nat.zero_min, Nat.zero_sub]
    rfl
  | succ n =>
    obtain ⟨u, hrun, hlast⟩ := hsettles n
    refine ⟨u, ?_, fun hk => hlast (Nat.le_of_succ_le_succ hk)⟩
    rw [times_succ h, hrun, Nat.succ_min_succ, List.replicate_succ, Nat.succ_sub_succ]
    rfl

end Pass

/-! ## Constants without a literal -/

section Count

variable {α : Type} {p : α → Bool} {g : Nat → α → α} {list : List α}

lemma count_head_le {x y : α} (h : p x = true → p y = true) :
    (if p x then 1 else 0) ≤ if p y then 1 else 0 := by
  by_cases hx : p x = true
  · rw [if_pos hx, if_pos (h hx)]
  · rw [if_neg hx]
    exact Nat.zero_le _

/-- There are no more elements with a property if none comes to have it. -/
lemma countP_mapIdx_le (h : ∀ i x, p (g i x) = true → p x = true) :
    (list.mapIdx g).countP p ≤ list.countP p := by
  induction list generalizing g with
  | nil => exact Nat.le_refl 0
  | cons x rest ih =>
    rw [List.mapIdx_cons, List.countP_cons, List.countP_cons]
    exact Nat.add_le_add (ih fun i => h (i + 1)) (count_head_le (h 0 x))

/-- There are fewer if one of them loses it. -/
lemma countP_mapIdx_lt (h : ∀ i x, p (g i x) = true → p x = true) {i : Nat} {x : α}
    (hx : list[i]? = some x) (hbefore : p x = true) (hafter : p (g i x) = false) :
    (list.mapIdx g).countP p < list.countP p := by
  induction list generalizing g i with
  | nil => cases hx
  | cons y rest ih =>
    have hrest : ∀ j z, p (g (j + 1) z) = true → p z = true := fun j => h (j + 1)
    rw [List.mapIdx_cons, List.countP_cons, List.countP_cons]
    -- At the position itself the count falls, and before and behind it it does not rise.
    cases i with
    | zero =>
      cases hx
      rw [if_pos hbefore, if_neg (ne_true_of_eq_false hafter)]
      exact Nat.add_lt_add_of_le_of_lt (countP_mapIdx_le hrest) Nat.one_pos
    | succ i => exact Nat.add_lt_add_of_lt_of_le (ih hrest hx hafter) (count_head_le (h 0 y))

end Count

/-- A compile-time constant that has an initializer other than a literal. -/
def Field.isPending (f : Field) : Bool :=
  f.isConstant && f.initializer?.any (·.literal?.isNone)

/-- A constant is pending after inlining if it was before, unless its initializer is the read of a
constant that has a literal. -/
lemma Field.isPending_inline (constant? : FieldId → Option Literal) (f : Field) :
    (f.mapInitializer (Expr.inline constant?)).isPending =
      (f.isPending && f.initializer?.any fun e => (e.read?.bind constant?).isNone) := by
  rw [isPending, isPending, mapInitializer, Variable.initializer?_mapInitializer, Option.any_map]
  cases f.initializer? with
  | none => simp
  | some e => simp [Expr.literal?_inline, Option.isNone_or, Bool.and_assoc]

namespace DeclaredType

variable {t : DeclaredType}

/-- The number of compile-time constants that have an initializer other than a literal. -/
def pendingConstants (t : DeclaredType) : Nat := t.fields.countP Field.isPending

/-- A type with a constant that inlining gives a literal has fewer without one afterwards. -/
lemma Promotes.pendingConstants_lt {f : FieldId} (h : t.Promotes f) :
    t.inlined.pendingConstants < t.pendingConstants := by
  obtain ⟨x, e, g, hx, hconstant, hanchored, he, hread, hg⟩ := h
  rw [field?, Option.ite_none_right_eq_some] at hx
  refine countP_mapIdx_lt (i := f.index) (x := x) ?_ ?_ ?_ ?_
  · intro i y hy
    by_cases hi : t.anchorsField i = true
    · rw [if_pos hi, Field.isPending_inline, Bool.and_eq_true] at hy
      exact hy.1
    · rwa [if_neg hi] at hy
  · exact hx.2
  · rw [Field.isPending, hconstant, he]
    simp [Expr.literal?_of_read? hread]
  · rw [if_pos hanchored, Field.isPending_inline, he]
    simp [hread, Option.isNone_eq_false_iff, Option.isSome_iff_ne_none, hg]

end DeclaredType

/-! ## Convergence -/

/-- Where a run changes something after another one, that one has given a constant its literal, and
the number of constants without one has fallen. -/
lemma pendingConstants_lt_of_changes {t : DeclaredType} (h : inlineConstants.failure? t = none)
    (hagain : inlineConstants.changes t.inlined = true) :
    t.inlined.pendingConstants < t.pendingConstants := by
  -- If no read were of a constant that has got its literal, the second run would change nothing.
  have hpromotes : ∃ f ∈ t.reads, t.Promotes f := by
    by_contra hnone
    have hfixed : t.inlined.inlined = t.inlined :=
      DeclaredType.inlined_inlined_eq_iff.mpr fun f hf hp => hnone ⟨f, hf, hp⟩
    rw [(inlineConstants_changes (failure?_inlined h)).mpr hfixed] at hagain
    cases hagain
  obtain ⟨f, -, hf⟩ := hpromotes
  exact hf.pendingConstants_lt

/-- Where inlining succeeds once, it succeeds any number of times in a row.  First come runs that
change the type, at most as many as there are compile-time constants with an initializer other than
a literal, and one more.  All runs after them change nothing. -/
theorem inlineConstants_settles (t t' : DeclaredType) (changed : Bool)
    (h : inlineConstants.run t = .ok changed t') :
    ∃ last, ∃ k ≤ t.pendingConstants + 1, inlineConstants.Settles t last k := by
  have hnone : inlineConstants.failure? t = none := by rw [Pass.failure?, h]
  clear h
  induction hm : t.pendingConstants using Nat.strong_induction_on generalizing t with
  | _ m ih =>
    have hrun := Pass.run_eq_ok hnone
    rw [inlineConstants_result hnone] at hrun
    -- A run that changes nothing is the last one; any other is followed by one that changes
    -- nothing, or has left fewer constants to resolve.
    cases hchanged : inlineConstants.changes t with
    | false =>
      rw [hchanged, (inlineConstants_changes hnone).mp hchanged] at hrun
      exact ⟨t, 0, Nat.zero_le _, Pass.settles_of_unchanged hrun⟩
    | true =>
      rw [hchanged] at hrun
      have hagain := failure?_inlined hnone
      cases hchanged' : inlineConstants.changes t.inlined with
      | false =>
        have hrun' := Pass.run_eq_ok hagain
        rw [inlineConstants_result hagain, hchanged',
          (inlineConstants_changes hagain).mp hchanged'] at hrun'
        exact ⟨t.inlined, 1, Nat.le_add_left 1 m,
          (Pass.settles_of_unchanged hrun').of_changed hrun⟩
      | true =>
        have hlt := pendingConstants_lt_of_changes hnone hchanged'
        obtain ⟨last, k, hk, hsettles⟩ := ih _ (hm ▸ hlt) t.inlined hagain rfl
        exact ⟨last, k + 1, by omega, hsettles.of_changed hrun⟩

/-- A class with one such constant is changed by two runs, and not by a third one. -/
theorem inlineConstants_settles_chainOfConstants :
    (∃ t', inlineConstants.run .chainOfConstants = .ok true t') ∧
      DeclaredType.chainOfConstants.pendingConstants = 1 ∧
      (∃ last, ∃ k ≤ 2, inlineConstants.Settles .chainOfConstants last k) ∧
      ∃ u, inlineConstants.times 3 .chainOfConstants = .ok [true, true, false] u := by
  have hnone : inlineConstants.failure? .chainOfConstants = none := by
    have hresolves : DeclaredType.chainOfConstants.dangling? = none := by decide +kernel
    rw [inlineConstants_failure?, hresolves, ite_self]
  have hfirst := Pass.run_eq_ok hnone
  have hsecond := Pass.run_eq_ok (failure?_inlined hnone)
  have hthird := Pass.run_eq_ok (failure?_inlined (failure?_inlined hnone))
  rw [inlineConstants_result hnone, show inlineConstants.changes _ = true by decide +kernel]
    at hfirst
  rw [inlineConstants_result (failure?_inlined hnone),
    show inlineConstants.changes _ = true by decide +kernel] at hsecond
  rw [show inlineConstants.changes _ = false by decide +kernel] at hthird
  refine ⟨⟨_, hfirst⟩, by decide +kernel, inlineConstants_settles _ _ _ hfirst,
    inlineConstants.result DeclaredType.chainOfConstants.inlined.inlined, ?_⟩
  rw [Pass.times_succ hfirst, Pass.times_succ hsecond, Pass.times_succ hthird]
  rfl

end DeclIR
