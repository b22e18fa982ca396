import DeclIR.Proofs.Code.Rewriting

/-!
# Traces of rewriting

What a rewriting walk does, apart from turning expressions into rewritten ones, can be read off the
events it comes across: which expressions are offered for replacement, what the variables in reach
become, and whether an anchor does not resolve.

* `Trace.run_ends`: how the trace of a body ends.
* `Trace.methods_ends`: how the trace of all methods of a type ends.
* `Trace.quiet_of_methods`: when it is that nothing is replaced.
-/

namespace DeclIR

variable {ξ ζ : Type}

/-- What a walk of a rewriter has done so far: the expressions it has offered, and what has become
of the variables in reach. -/
structure Trace (ξ : Type) where
  offered : List Expr
  reach : ξ

/-- The expressions that `g` is asked about while a variable's initializer is rewritten. -/
def Declared.offered (g : Expr → Option Expr) (d : Declared) : List Expr :=
  match d.base.declaration with
  | some x => x.initializer.offered g
  | none => []

namespace Trace

/-- Offers the expressions in an expression or in the initializer that an anchor stands for. -/
def step (g : Expr → Option Expr) (t : Trace Scope) : Event → Except Fault (Trace Scope)
  | .expr e => .ok { t with offered := t.offered ++ e.offered g }
  | .anchor a =>
    match t.reach.resolve? a.slot with
    | none => .error (.danglingSlot a.slot a.info)
    | some d => .ok ⟨t.offered ++ d.offered g, t.reach.touch (Expr.rewrite g) a.slot⟩

/-- Takes a step for each event, up to the first anchor that does not resolve. -/
def run (g : Expr → Option Expr) (events : List Event) (t : Trace Scope) :
    Except Fault (Trace Scope) :=
  events.foldlM (step g) t

/-- A trace over two runs of events is the trace over the first and then over the second. -/
lemma run_append (g : Expr → Option Expr) (a b : List Event) :
    run g (a ++ b) = fun t => run g a t >>= run g b := by
  funext t
  exact List.foldlM_append

lemma run_cons (g : Expr → Option Expr) (x : Event) (rest : List Event) :
    run g (x :: rest) = fun t => step g t x >>= run g rest := by
  funext t
  exact List.foldlM_cons

lemma run_stmts (g : Expr → Option Expr) (stmts : List Stmt) :
    run g (stmtsEvents stmts) = fun t => stmts.foldlM (fun t s => run g s.events t) t := by
  induction stmts with
  | nil => rfl
  | cons s rest ih =>
    rw [stmtsEvents, run_append, ih]
    funext t
    rw [List.foldlM_cons]

lemma run_singleton (g : Expr → Option Expr) (x : Event) : run g [x] = fun t => step g t x := by
  funext t
  rw [run_cons]
  exact bind_pure (step g t x)

/-! ## Traces that succeed -/

/-- A sequence succeeds exactly where both of its parts do. -/
lemma bind_eq_ok_iff {α β : Type} {x : Except Fault α} {f : α → Except Fault β} {b : β} :
    x >>= f = .ok b ↔ ∃ a, x = .ok a ∧ f a = .ok b := by
  cases x with
  | error e => exact ⟨nofun, nofun⟩
  | ok a => exact ⟨fun h => ⟨a, rfl, h⟩, fun ⟨_, ha, h⟩ => Except.ok.inj ha ▸ h⟩

/-- A sequence fails where its first part does, or its second part behind the first. -/
lemma bind_eq_error_iff {α β : Type} {x : Except Fault α} {f : α → Except Fault β} {e : Fault} :
    x >>= f = .error e ↔ x = .error e ∨ ∃ a, x = .ok a ∧ f a = .error e := by
  cases x with
  | error e' =>
    constructor
    · intro h
      exact .inl (congrArg _ (Except.error.inj h))
    · rintro (h | ⟨_, ⟨⟩, _⟩)
      exact congrArg _ (Except.error.inj h)
  | ok a =>
    constructor
    · exact fun h => .inr ⟨a, rfl, h⟩
    · rintro (h | ⟨_, ha, h⟩)
      · cases h
      · exact Except.ok.inj ha ▸ h

/-- A trace over some events goes on from the step at the first of them. -/
lemma run_cons_eq_ok_iff {g : Expr → Option Expr} {x : Event} {rest : List Event}
    {t t' : Trace Scope} :
    run g (x :: rest) t = .ok t' ↔ ∃ t₁, step g t x = .ok t₁ ∧ run g rest t₁ = .ok t' := by
  rw [run_cons]
  exact bind_eq_ok_iff

/-! ## How traces end -/

/-- A trace fails with the fault given, if there is one, and otherwise leaves `reach`. -/
def Ends (x : Except Fault (Trace ξ)) (fault? : Option Fault) (reach : ξ) : Prop :=
  match fault? with
  | some f => x = .error f
  | none => ∃ offered, x = .ok ⟨offered, reach⟩

/-- A trace that does not fail leaves what it is known to leave. -/
lemma Ends.reach_eq {x : Except Fault (Trace ξ)} {fault? : Option Fault} {reach : ξ}
    {t : Trace ξ} (h : Ends x fault? reach) (hx : x = .ok t) : t.reach = reach := by
  subst hx
  cases fault? with
  | some f => cases h
  | none =>
    obtain ⟨offered, hoffered⟩ := h
    cases hoffered
    rfl

/-- A trace that goes on fails with its first fault. -/
lemma Ends.bind {x : Except Fault (Trace ξ)} {k : Trace ξ → Except Fault (Trace ζ)}
    {fault? fault?' : Option Fault} {reach : ξ} {reach' : ζ} (h : Ends x fault? reach)
    (hk : ∀ offered, Ends (k ⟨offered, reach⟩) fault?' reach') :
    Ends (x >>= k) (fault?.or fault?') reach' := by
  cases fault? with
  | some f =>
    have hx : x = .error f := h
    rw [hx]
    rfl
  | none =>
    obtain ⟨offered, rfl⟩ := h
    exact hk offered

lemma findSome?_cons_eq_or {α β : Type} (f : α → Option β) (a : α) (rest : List α) :
    (a :: rest).findSome? f = (f a).or (rest.findSome? f) := by
  rw [List.findSome?_cons]
  cases f a <;> rfl

/-- A step at an anchor ends with the fault of a dangling one or touches the declaration once. -/
lemma step_ends (g : Expr → Option Expr) (t : Trace Scope) (a : Anchor) :
    Ends (step g t (.anchor a)) (t.reach.dangling? a)
      (t.reach.touch (Expr.rewrite g) a.slot) := by
  rw [step, Scope.dangling?]
  cases t.reach.resolve? a.slot with
  | none => rfl
  | some d => exact ⟨_, rfl⟩

/-- A walk fails at the first anchor that does not resolve, and otherwise changes each variable in
reach at each of its anchors. -/
lemma run_ends (g : Expr → Option Expr) (events : List Event) (t : Trace Scope) :
    Ends (run g events t) ((events.filterMap Event.anchor?).findSome? t.reach.dangling?)
      (((events.filterMap Event.anchor?).map (·.slot)).foldl (Scope.touch (Expr.rewrite g))
        t.reach) := by
  induction events generalizing t with
  | nil => exact ⟨t.offered, rfl⟩
  | cons x rest ih =>
    rw [run_cons]
    cases x with
    | expr e => exact ih ⟨t.offered ++ e.offered g, t.reach⟩
    | anchor a =>
      have hanchors : (Event.anchor a :: rest).filterMap Event.anchor? =
          a :: rest.filterMap Event.anchor? := rfl
      rw [hanchors, findSome?_cons_eq_or]
      refine (step_ends g t a).bind fun offered => ?_
      -- Touching a variable does not change which anchors resolve.
      rw [← Scope.dangling?_touch]
      exact ih ⟨offered, t.reach.touch (Expr.rewrite g) a.slot⟩

lemma run_events_ends (g : Expr → Option Expr) (m : Method) (offered : List Expr)
    (fields : List Field) :
    Ends (run g m.events ⟨offered, ⟨m.owner, fields, m.locals⟩⟩) (m.dangling? fields)
      { owner := m.owner
        fields := fields.mapIdx fun i x =>
          (Field.mapInitializer (Expr.rewrite g))^[m.visitsOf i] x
        locals := (m.rewrite g).locals } := by
  have h := run_ends g m.events ⟨offered, ⟨m.owner, fields, m.locals⟩⟩
  rw [m.filterMap_events, Scope.foldl_touch] at h
  exact h

/-! ## Methods -/

/-- Goes through the body of a method, with the fields of the type around it. -/
def method (g : Expr → Option Expr) (m : Method) (t : Trace (List Field)) :
    Except Fault (Trace (List Field)) := do
  let t' ← run g m.events ⟨t.offered, ⟨m.owner, t.reach, m.locals⟩⟩
  return ⟨t'.offered, t'.reach.fields⟩

/-- A method's trace ends with its first dangling anchor or rewrites each field as often as its body
anchors it. -/
lemma method_ends (g : Expr → Option Expr) (m : Method) (t : Trace (List Field)) :
    Ends (method g m t) (m.dangling? t.reach)
      (t.reach.mapIdx fun i x => (Field.mapInitializer (Expr.rewrite g))^[m.visitsOf i] x) := by
  have hend : m.dangling? t.reach = (m.dangling? t.reach).or none := by rw [Option.or_none]
  rw [method, hend]
  exact (run_events_ends g m t.offered t.reach).bind fun offered => ⟨offered, rfl⟩

/-- A trace over a method is one over its body, of which it keeps what became of the fields. -/
lemma method_eq_ok_iff {g : Expr → Option Expr} {m : Method} {t t' : Trace (List Field)} :
    method g m t = .ok t' ↔ ∃ t₁,
      run g m.events ⟨t.offered, ⟨m.owner, t.reach, m.locals⟩⟩ = .ok t₁ ∧
        t' = ⟨t₁.offered, t₁.reach.fields⟩ := by
  rw [method, bind_eq_ok_iff]
  refine exists_congr fun t₁ => and_congr_right fun _ => ?_
  constructor
  · exact fun h => (Except.ok.inj h).symm
  · exact fun h => congrArg Except.ok h.symm

/-- Goes through some methods. -/
def methods (g : Expr → Option Expr) (list : List Method) (t : Trace (List Field)) :
    Except Fault (Trace (List Field)) :=
  list.foldlM (fun t m => method g m t) t

/-- A trace over some methods goes on from the one over the first of them. -/
lemma methods_cons_eq_ok_iff {g : Expr → Option Expr} {m : Method} {rest : List Method}
    {t t' : Trace (List Field)} :
    methods g (m :: rest) t = .ok t' ↔
      ∃ t₁, method g m t = .ok t₁ ∧ methods g rest t₁ = .ok t' := by
  rw [methods, List.foldlM_cons]
  exact bind_eq_ok_iff

/-- The traces of the methods end with the first dangling anchor among them, or rewrite each field
as often as they anchor it. -/
lemma methods_ends (g : Expr → Option Expr) (list : List Method) (t : Trace (List Field)) :
    Ends (methods g list t) (list.findSome? (Method.dangling? t.reach))
      (t.reach.mapIdx fun i x =>
        (Field.mapInitializer (Expr.rewrite g))^[(list.map (Method.visitsOf i)).sum] x) := by
  induction list generalizing t with
  | nil =>
    simp only [List.map_nil, List.sum_nil, Function.iterate_zero, id, mapIdx_unchanged]
    exact ⟨t.offered, rfl⟩
  | cons m rest ih =>
    rw [methods, List.foldlM_cons, findSome?_cons_eq_or]
    refine (method_ends g m t).bind fun offered => ?_
    have hrest := ih ⟨offered, t.reach.mapIdx fun i x =>
      (Field.mapInitializer (Expr.rewrite g))^[m.visitsOf i] x⟩
    -- The fields are still as many, and the changes of this method come before those of the rest.
    rw [Method.dangling?_congr List.length_mapIdx] at hrest
    simp only [List.mapIdx_mapIdx, Function.comp_def, ← Function.iterate_add_apply] at hrest
    simp only [List.map_cons, List.sum_cons, Nat.add_comm (Method.visitsOf _ m)]
    exact hrest

/-! ## Traces without replacements -/

/-- None of the expressions offered so far is replaced. -/
def Quiet (g : Expr → Option Expr) (t : Trace ξ) : Prop := ∀ x ∈ t.offered, g x = none

section Quiet

variable {g : Expr → Option Expr}

/-- A step offers what is in the expression that it comes to. -/
lemma offered_of_step {t t' : Trace Scope} {x : Event} (h : step g t x = .ok t') :
    t'.offered = t.offered ++ (t.reach.exprAt? x).toList.flatMap (Expr.offered g) := by
  cases x with
  | expr e =>
    cases h
    simp [Scope.exprAt?]
  | anchor a =>
    rw [step] at h
    cases hd : t.reach.resolve? a.slot with
    | none =>
      simp only [hd] at h
      cases h
    | some d =>
      simp only [hd] at h
      cases h
      simp only [Scope.exprAt?, hd, Option.bind_some, Declared.offered, Variable.initializer?]
      cases d.base.declaration <;> simp

/-- Behind a step a trace is quiet exactly where it was before and the expression that the step
offers is settled. -/
lemma quiet_of_step {t t' : Trace Scope} {x : Event} (h : step g t x = .ok t') :
    t'.Quiet g ↔ t.Quiet g ∧ ∀ e, t.reach.exprAt? x = some e → e.Settled g := by
  rw [Quiet, offered_of_step h]
  cases t.reach.exprAt? x with
  | none => simp [Quiet]
  | some e => simp [Quiet, Expr.Settled, or_imp, forall_and]

/-- Where nothing is replaced, the variables stay as they are. -/
lemma reach_of_step {t t' : Trace Scope} {x : Event} (h : step g t x = .ok t')
    (hq : t'.Quiet g) : t'.reach = t.reach := by
  obtain ⟨-, hsettled⟩ := (quiet_of_step h).mp hq
  cases x with
  | expr e =>
    cases h
    rfl
  | anchor a =>
    rw [step] at h
    cases hd : t.reach.resolve? a.slot with
    | none =>
      simp only [hd] at h
      cases h
    | some d =>
      simp only [hd] at h
      cases h
      apply Scope.touch_self hd
      intro e he
      exact (hsettled e (by rw [Scope.exprAt?, hd, Option.bind_some, he])).rewrite

/-- Nothing is replaced in a body just when all expressions that the walk comes to are settled. -/
lemma quiet_of_run {events : List Event} {t t' : Trace Scope} (h : run g events t = .ok t') :
    (t'.Quiet g ↔ t.Quiet g ∧ ∀ e ∈ events.filterMap t.reach.exprAt?, e.Settled g) ∧
      (t'.Quiet g → t'.reach = t.reach) := by
  induction events generalizing t with
  | nil =>
    cases h
    simp
  | cons x rest ih =>
    obtain ⟨t₁, hstep, hrest⟩ := run_cons_eq_ok_iff.mp h
    obtain ⟨hquiet, hreach⟩ := ih hrest
    have hfirst := quiet_of_step hstep
    by_cases hq : t₁.Quiet g
    · -- What comes after the first event is still to be seen in the same variables.
      have hsame := reach_of_step hstep hq
      rw [hsame] at hquiet hreach
      obtain ⟨ht, hsettled⟩ := hfirst.mp hq
      refine ⟨?_, hreach⟩
      rw [hquiet]
      cases hx : t.reach.exprAt? x with
      | none => simp [hx, hq, ht]
      | some e => simp [hx, hq, ht, hsettled e hx]
    · -- What is replaced at the first event stays among what was offered.
      have hloud : ¬t'.Quiet g := fun h => hq (hquiet.mp h).1
      refine ⟨⟨fun h => absurd h hloud, fun ⟨ht, hall⟩ => absurd ?_ hq⟩,
        fun h => absurd h hloud⟩
      refine hfirst.mpr ⟨ht, fun e he => hall e ?_⟩
      exact List.mem_filterMap.mpr ⟨x, List.mem_cons_self, he⟩

/-- Behind a method a trace is quiet exactly where it was before and all that the walk of the method
comes to is settled; then the fields are as they were. -/
lemma quiet_of_method {m : Method} {t t' : Trace (List Field)} (h : method g m t = .ok t') :
    (t'.Quiet g ↔ t.Quiet g ∧ ∀ e ∈ m.walked t.reach, e.Settled g) ∧
      (t'.Quiet g → t'.reach = t.reach) := by
  obtain ⟨t₁, hrun, rfl⟩ := method_eq_ok_iff.mp h
  obtain ⟨hquiet, hreach⟩ := quiet_of_run hrun
  exact ⟨hquiet, fun hq => congrArg Scope.fields (hreach hq)⟩

/-- Nothing is replaced in some methods just when all expressions that the walk comes to are
settled. -/
lemma quiet_of_methods {list : List Method} {t t' : Trace (List Field)}
    (h : methods g list t = .ok t') :
    t'.Quiet g ↔ t.Quiet g ∧ ∀ e ∈ list.flatMap (Method.walked t.reach), e.Settled g := by
  induction list generalizing t with
  | nil =>
    cases h
    simp
  | cons m rest ih =>
    obtain ⟨t₁, hmethod, hmethods⟩ := methods_cons_eq_ok_iff.mp h
    obtain ⟨hfirst, hreach⟩ := quiet_of_method hmethod
    rw [ih hmethods, List.flatMap_cons]
    -- If nothing is replaced in the first method, the next one is walked in the same fields.
    constructor
    · rintro ⟨hq, hrest⟩
      rw [hreach hq] at hrest
      obtain ⟨ht, hm⟩ := hfirst.mp hq
      exact ⟨ht, List.forall_mem_append.mpr ⟨hm, hrest⟩⟩
    · rintro ⟨ht, hall⟩
      obtain ⟨hm, hrest⟩ := List.forall_mem_append.mp hall
      have hq := hfirst.mpr ⟨ht, hm⟩
      exact ⟨hq, by rwa [hreach hq]⟩

end Quiet

end Trace
end DeclIR
