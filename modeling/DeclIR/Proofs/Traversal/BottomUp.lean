import DeclIR.Proofs.Traversal.Rewriting
import Mathlib.Data.List.Forall2

/-!
# Replacement from the inside out

A rewriter is asked about each node of an expression once, when the parts of the node are already
rewritten, and never about a node of a replacement.  This holds of every expression that a walk of a
type comes to: the expressions of the bodies, and the initializers, which it comes to at the anchors
of their variables.  An initializer with several anchors is rewritten at each of them, and what it
is then asked about is what the anchors before have left (`Stop.ReachedAs`).

`Visitor.Rewrites.walks_bottom_up` says both of an expression and of a type.
-/

namespace DeclIR

open Visit

/-! ## Expressions -/

namespace Expr

/-- The expressions that an expression is made of, each one behind its own parts. -/
def nodes : Expr → List Expr
  | .instanceField i id receiver => receiver.nodes ++ [.instanceField i id receiver]
  | .binary i op lhs rhs => lhs.nodes ++ rhs.nodes ++ [.binary i op lhs rhs]
  | e => [e]

/-- What `g` is asked about while an expression is rewritten: each of its nodes, with the parts of
the node rewritten. -/
def consulted (g : Expr → Option Expr) (e : Expr) : List Expr :=
  e.nodes.map (mapOperands (rewrite g))

/-- What the walk offers of an expression is what the substitution consults. -/
lemma offered_eq_consulted (g : Expr → Option Expr) (e : Expr) : e.offered g = e.consulted g := by
  unfold consulted
  induction e with
  | instanceField i id receiver ih => simp [offered, nodes, mapOperands, ih]
  | binary i op lhs rhs ihl ihr => simp [offered, nodes, mapOperands, ihl, ihr]
  | _ => rfl

end Expr

/-! ## Where a walk comes to expressions -/

/-- An expression that a walk comes to, as it is before the walk. -/
structure Stop where
  expr : Expr
  /-- The number of times that the walk comes to it: once to an expression of a body, and to an
  initializer as often as its variable is anchored. -/
  visits : Nat
deriving DecidableEq

/-- The expression is what some visits of the stop have made of it, but not yet the last one. -/
def Stop.ReachedAs (g : Expr → Option Expr) (s : Stop) (e : Expr) : Prop :=
  ∃ k < s.visits, e = (Expr.rewrite g)^[k] s.expr

/-- How often a walk comes to an event's expression, given how often each slot is anchored. -/
def Event.visits (total : VarSlot → Nat) : Event → Nat
  | .expr _ => 1
  | .anchor a => total a.slot

/-- The stops at some events, given how often each slot is anchored. -/
def Scope.stops (scope : Scope) (total : VarSlot → Nat) (events : List Event) : List Stop :=
  events.filterMap fun x => (scope.exprAt? x).map fun e => ⟨e, x.visits total⟩

/-- How often each slot is anchored, as far as the method's body can anchor it, given this for the
fields. -/
def Method.visits (total : Nat → Nat) (m : Method) : VarSlot → Nat
  | .field id => total id.index
  | .localVar i => m.slots.count (.localVar i)

/-- The stops in a method of a type that has these fields, which are anchored this often. -/
def Method.stops (fields : List Field) (total : Nat → Nat) (m : Method) : List Stop :=
  Scope.stops ⟨m.owner, fields, m.locals⟩ (m.visits total) m.events

/-- The stops in a type, in the order that a walk comes to them. -/
def DeclaredType.stops (t : DeclaredType) : List Stop :=
  t.methods.flatMap (Method.stops t.fields fun i => (t.methods.map (Method.visitsOf i)).sum)

namespace Scope

variable {g : Expr → Option Expr} {f : Expr → Expr} {scope scope' : Scope} {slot : VarSlot}
  {done : VarSlot → Nat}

/-- An anchor offers a touched declaration's initializer as the touch left it. -/
lemma exprAt?_touch (a : Anchor) :
    (scope.touch f slot).exprAt? (.anchor a) =
      (scope.exprAt? (.anchor a)).map (if a.slot = slot then f else id) := by
  simp only [exprAt?, resolve?_touch]
  cases scope.resolve? a.slot with
  | none => rfl
  | some d =>
    by_cases h : a.slot = slot
    · simp [h, Declared.base_mapInitializer, Variable.initializer?_mapInitializer]
    · simp [h]

/-- The second scope is the first one with each initializer rewritten as often as `done` says. -/
def Ahead (g : Expr → Option Expr) (done : VarSlot → Nat) (scope scope' : Scope) : Prop :=
  ∀ a : Anchor, scope'.exprAt? (.anchor a) =
    (scope.exprAt? (.anchor a)).map (Expr.rewrite g)^[done a.slot]

lemma Ahead.touch (h : scope.Ahead g done scope') (slot : VarSlot) :
    scope.Ahead g (fun s => done s + [slot].count s) (scope'.touch (Expr.rewrite g) slot) := by
  intro a
  rw [exprAt?_touch, h a, Option.map_map]
  congr 1
  by_cases hslot : a.slot = slot
  · simp only [hslot, if_true, List.count_singleton_self, Function.iterate_succ']
  · simp [hslot, Ne.symm hslot]

/-- How often each slot has been passed before a method's body, given this for the fields. -/
def doneOf (done : Nat → Nat) : VarSlot → Nat
  | .field id => done id.index
  | .localVar _ => 0

lemma ahead_fields (owner : TypeId) (fields : List Field) (locals : List Variable)
    (done : Nat → Nat) :
    Ahead g (doneOf done) ⟨owner, fields, locals⟩
      ⟨owner, fields.mapIdx fun i x => (Field.mapInitializer (Expr.rewrite g))^[done i] x,
        locals⟩ := by
  have hiterate (n : Nat) (x : Field) :
      ((Field.mapInitializer (Expr.rewrite g))^[n] x).initializer? =
        x.initializer?.map (Expr.rewrite g)^[n] := by
    induction n with
    | zero => simp
    | succ n ih =>
      rw [Function.iterate_succ_apply', Field.mapInitializer, Variable.initializer?_mapInitializer,
        ih, Option.map_map, Function.iterate_succ']
  rintro ⟨info, slot⟩
  cases slot with
  | localVar i => simp [exprAt?, resolve?, doneOf]
  | field id =>
    by_cases howner : id.owner = owner
    · cases hf : fields[id.index]? <;>
        simp [exprAt?, resolve?, doneOf, howner, hf, Declared.base, hiterate]
    · simp [exprAt?, resolve?, howner]

end Scope

/-! ## What a trace has offered -/

namespace Trace

variable {g : Expr → Option Expr}

/-- In a body, what is offered are the nodes of the expressions at its stops, by induction on the
events, where `done` counts the anchors that have been passed. -/
lemma reached_of_run {events : List Event} {t t' : Trace Scope} {scope : Scope}
    {done total : VarSlot → Nat} (h : run g events t = .ok t') (hahead : scope.Ahead g done t.reach)
    (htotal : ∀ slot, (scope.resolve? slot).isSome →
      done slot + ((events.filterMap Event.anchor?).map (·.slot)).count slot ≤ total slot) :
    ∃ reached, (scope.stops total events).Forall₂ (Stop.ReachedAs g) reached ∧
      t'.offered = t.offered ++ reached.flatMap (Expr.offered g) := by
  induction events generalizing t done with
  | nil =>
    cases h
    exact ⟨[], .nil, by simp⟩
  | cons x rest ih =>
    obtain ⟨t₁, hstep, hrun⟩ := run_cons_eq_ok_iff.mp h
    have hoffered := offered_of_step hstep
    cases x with
    | expr e =>
      -- An expression of the statement itself is offered as it stands, and no variable is
      -- touched.
      cases hstep
      obtain ⟨reached, hreached, hrest⟩ := ih hrun hahead htotal
      refine ⟨e :: reached, .cons ⟨0, Nat.one_pos, rfl⟩ hreached, ?_⟩
      rw [hrest, hoffered]
      simp [Scope.exprAt?]
    | anchor a =>
      -- An anchor counts for its slot from here on, since its variable has been rewritten once
      -- more.
      have hreach : t₁.reach = t.reach.touch (Expr.rewrite g) a.slot :=
        Ends.reach_eq (step_ends g t a) hstep
      have hcount (slot : VarSlot) :
          (((Event.anchor a :: rest).filterMap Event.anchor?).map (·.slot)).count slot =
            [a.slot].count slot + ((rest.filterMap Event.anchor?).map (·.slot)).count slot := by
        rw [← List.count_append]
        rfl
      have hbehind (slot : VarSlot) (hslot : (scope.resolve? slot).isSome) :
          done slot + [a.slot].count slot +
            ((rest.filterMap Event.anchor?).map (·.slot)).count slot ≤ total slot := by
        have := htotal slot hslot
        rw [hcount] at this
        omega
      obtain ⟨reached, hreached, hrest⟩ := ih hrun (hreach ▸ hahead.touch a.slot) hbehind
      rw [hahead a] at hoffered
      -- The anchor's variable may have no initializer, and then this is no stop.
      cases he : scope.exprAt? (.anchor a) with
      | none =>
        refine ⟨reached, ?_, ?_⟩
        · rw [Scope.stops, List.filterMap_cons, he]
          exact hreached
        · rw [hrest, hoffered, he]
          simp
      | some e =>
        refine ⟨(Expr.rewrite g)^[done a.slot] e :: reached, ?_, ?_⟩
        · rw [Scope.stops, List.filterMap_cons, he]
          -- This anchor is still to be counted, so the variable has been rewritten less often
          -- than in all.
          refine .cons ⟨done a.slot, ?_, rfl⟩ hreached
          have hslot : (scope.resolve? a.slot).isSome := by
            by_contra hnone
            simp [Scope.exprAt?, Option.not_isSome_iff_eq_none.mp hnone] at he
          have := htotal a.slot hslot
          rw [hcount, List.count_singleton_self] at this
          show done a.slot < total a.slot
          omega
        · rw [hrest, hoffered, he]
          simp

/-- In a method, what is offered are the nodes of the expressions at its stops, where `done` counts
the anchors that have been passed in the methods before it. -/
lemma reached_of_method {m : Method} {t t' : Trace (List Field)} {fields : List Field}
    {done total : Nat → Nat} (h : method g m t = .ok t')
    (hfields : t.reach = fields.mapIdx fun i x =>
      (Field.mapInitializer (Expr.rewrite g))^[done i] x)
    (htotal : ∀ i, done i + m.visitsOf i ≤ total i) :
    ∃ reached, (m.stops fields total).Forall₂ (Stop.ReachedAs g) reached ∧
      t'.offered = t.offered ++ reached.flatMap (Expr.offered g) := by
  obtain ⟨t₁, hrun, rfl⟩ := method_eq_ok_iff.mp h
  -- A method is walked from the fields that the methods before it have left.
  refine reached_of_run hrun (hfields ▸ Scope.ahead_fields m.owner fields m.locals done) ?_
  intro slot hslot
  rw [m.filterMap_events]
  cases slot with
  | localVar i => simp [Method.visits, Method.slots, Scope.doneOf]
  | field id =>
    -- A field that resolves is one of the type that the method belongs to.
    obtain ⟨d, hd⟩ := Option.isSome_iff_exists.mp hslot
    obtain ⟨howner, -⟩ := Scope.resolve?_field_eq_some_iff.mp hd
    have hid : id = ⟨m.owner, id.index⟩ := by rw [← show id.owner = m.owner from howner]
    have := htotal id.index
    rw [Method.visitsOf, ← hid] at this
    exact this

/-- In the methods of a type, by induction on the methods, where `done` counts the anchors that have
been passed. -/
lemma reached_of_methods {list : List Method} {t t' : Trace (List Field)} {fields : List Field}
    {done total : Nat → Nat} (h : methods g list t = .ok t')
    (hfields : t.reach = fields.mapIdx fun i x =>
      (Field.mapInitializer (Expr.rewrite g))^[done i] x)
    (htotal : ∀ i, done i + (list.map (Method.visitsOf i)).sum ≤ total i) :
    ∃ reached, (list.flatMap (Method.stops fields total)).Forall₂ (Stop.ReachedAs g) reached ∧
      t'.offered = t.offered ++ reached.flatMap (Expr.offered g) := by
  induction list generalizing t done with
  | nil =>
    cases h
    exact ⟨[], .nil, by simp⟩
  | cons m rest ih =>
    simp only [List.map_cons, List.sum_cons] at htotal
    obtain ⟨t₁, hmethod, hmethods⟩ := methods_cons_eq_ok_iff.mp h
    have hm (i : Nat) : done i + m.visitsOf i ≤ total i := by
      have := htotal i
      omega
    obtain ⟨reached, hreached, hoffered⟩ := reached_of_method hmethod hfields hm
    -- The rewriting of the fields adds up over the methods.
    have hreach : t₁.reach = fields.mapIdx fun i x =>
        (Field.mapInitializer (Expr.rewrite g))^[m.visitsOf i + done i] x := by
      rw [Ends.reach_eq (method_ends g m t) hmethod, hfields, List.mapIdx_mapIdx]
      simp only [Function.comp_def, ← Function.iterate_add_apply]
    have hrest (i : Nat) :
        m.visitsOf i + done i + (rest.map (Method.visitsOf i)).sum ≤ total i := by
      have := htotal i
      omega
    obtain ⟨reached', hreached', hoffered'⟩ := ih hmethods hreach hrest
    refine ⟨reached ++ reached', ?_, ?_⟩
    · rw [List.flatMap_cons]
      exact List.rel_append hreached hreached'
    · rw [hoffered', hoffered, List.flatMap_append, List.append_assoc]

end Trace

/-! ## Walks -/

/-- A visitor that replaces expressions when it leaves them rewrites each expression it comes to
from the inside out.  It is asked about each node of the expression once, in order, when the parts
of the node are rewritten, and about nothing else.  In a type whose anchors resolve it does this to
the expressions of the bodies and to the initializers of anchored variables; what it reaches is what
stood there before, except for an initializer with several anchors. -/
theorem Visitor.Rewrites.walks_bottom_up {σ : Type} {v : Visitor σ} {r : Rewriter σ}
    (hv : v.Rewrites r) :
    (∀ (e : Expr) (c : Context) (own : σ),
      let asked := e.consulted r.replacement?
      v.walkExpr ⟨e, c, own⟩ =
        .ok () ⟨e.rewrite r.replacement?, c.mark (r.hits asked), r.notes own asked⟩) ∧
    ∀ (t : DeclaredType) (c : Context) (own : σ), t.dangling? = none →
      ∃ reached, t.stops.Forall₂ (Stop.ReachedAs r.replacement?) reached ∧
        let asked := reached.flatMap (Expr.consulted r.replacement?)
        v.walkType ⟨t, c, own⟩ =
          .ok () ⟨t.rewrite r.replacement?, c.mark (r.hits asked), r.notes own asked⟩ := by
  constructor
  · intro e c own
    simp only [← Expr.offered_eq_consulted]
    exact hv.walkExpr e c own
  · intro t c own hresolves
    have hends := Trace.methods_ends r.replacement? t.methods ⟨[], t.fields⟩
    rw [show t.methods.findSome? _ = none from hresolves] at hends
    obtain ⟨offered, hmethods⟩ := hends
    -- Nothing has been passed when the walk begins.
    have hfields : t.fields = t.fields.mapIdx fun _ x =>
        (Field.mapInitializer (Expr.rewrite r.replacement?))^[0] x := (mapIdx_unchanged _).symm
    have htotal (i : Nat) : 0 + (t.methods.map (Method.visitsOf i)).sum ≤
        (t.methods.map (Method.visitsOf i)).sum := (Nat.zero_add _).le
    obtain ⟨reached, hreached, hoffered⟩ := Trace.reached_of_methods hmethods hfields htotal
    refine ⟨reached, hreached, ?_⟩
    rw [← funext (Expr.offered_eq_consulted r.replacement?),
      hv.walkType_of_methods hmethods, hoffered]
    rfl

namespace Expr

/-- An integer that stands in the code. -/
def int (n : Int32) : Expr := .literal .synthetic (.int n)

/-- The sum of two expressions. -/
def plus (a b : Expr) : Expr := .binary .synthetic .add a b

/-- Adds up two integers that stand in the code. -/
def sum? : Expr → Option Expr
  | .binary _ .add (.literal _ (.int a)) (.literal _ (.int b)) => some (int (a + b))
  | _ => none

end Expr

/-- Adds up integers, and records what it is asked about. -/
def Rewriter.adding : Rewriter (List Expr) where
  replacement? := Expr.sum?
  note e seen := seen ++ [e]

/-- A class with a constant that is initialized with the sum of three integers. -/
def DeclaredType.withSum : DeclaredType :=
  (DeclaredType.new .synthetic 0 "C" .classType none).insertField <|
    (Field.new .synthetic (.ofChar 'K') 0 (.primitive .int) true .constant).declare
      ⟨.synthetic, ((Expr.int 1).plus (.int 2)).plus (.int 3)⟩

/-- When the rewriter is asked about the outer sum of the constant, the inner one is already
replaced. -/
theorem Rewriter.adding_withSum :
    adding.visitor.Rewrites adding ∧ DeclaredType.withSum.dangling? = none ∧
      ∃ t, adding.visitor.walkType ⟨.withSum, {}, []⟩ = .ok () ⟨t, { changed := true },
          [.int 1, .int 2, (Expr.int 1).plus (.int 2), .int 3, (Expr.int 3).plus (.int 3)]⟩ ∧
        t.fields.map (·.initializer?) = [some (.int 6)] := by
  have hresolves : DeclaredType.withSum.dangling? = none := by decide +kernel
  refine ⟨adding.visitor_rewrites, hresolves, ?_⟩
  obtain ⟨reached, hreached, hwalk⟩ :=
    adding.visitor_rewrites.walks_bottom_up.2 .withSum {} [] hresolves
  have hstops : DeclaredType.withSum.stops =
      [⟨((Expr.int 1).plus (.int 2)).plus (.int 3), 1⟩] := by decide +kernel
  rw [hstops] at hreached
  cases hreached with
  | cons hfirst hnil =>
    cases hnil
    obtain ⟨k, hk, rfl⟩ := hfirst
    obtain rfl : k = 0 := Nat.lt_one_iff.mp hk
    exact ⟨_, hwalk, by decide +kernel⟩

end DeclIR
