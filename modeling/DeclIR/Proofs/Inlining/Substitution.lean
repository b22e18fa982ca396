import DeclIR.Pass.Inlining
import DeclIR.Proofs.Traversal.Rewriting

/-!
# Inlining is a substitution

The inliner is a rewriter, and what it rewrites code to is a substitution of literals for static
reads.  To substitute twice is to substitute once, so it does not matter how often a variable is
anchored: an initializer is inlined if an anchor stands for its variable, and stays as it is
otherwise.

`inlineConstants_run` says when the pass fails, and that it leaves the substituted type when it does
not.
-/

namespace DeclIR

open Visit

/-! ## Expressions -/

namespace Expr

variable {constant? : FieldId → Option Literal}

/-- Puts literals in the place of the static reads that `constant?` has one for. -/
def inline (constant? : FieldId → Option Literal) : Expr → Expr
  | .staticField info f =>
    match constant? f with
    | some value => .literal info value
    | none => .staticField info f
  | .instanceField info f receiver => .instanceField info f (receiver.inline constant?)
  | .binary info op lhs rhs => .binary info op (lhs.inline constant?) (rhs.inline constant?)
  | e => e

/-- The literal that takes the place of an expression, if it is the read of a constant. -/
def constantRead? (constant? : FieldId → Option Literal) : Expr → Option Expr
  | .staticField info f => (constant? f).map (.literal info)
  | _ => none

/-- To rewrite by the reads of constants is to inline. -/
lemma rewrite_constantRead? (e : Expr) :
    e.rewrite (constantRead? constant?) = e.inline constant? := by
  induction e with
  | instanceField i f receiver ih => rw [rewrite, ih]; rfl
  | binary i op lhs rhs ihl ihr => rw [rewrite, ihl, ihr]; rfl
  | staticField i f =>
    rw [rewrite_eq, inline]
    show ((constant? f).map (literal i)).getD (staticField i f) = _
    cases constant? f <;> rfl
  | _ => rfl

/-- No read of a constant is left after substitution. -/
lemma inline_inline (e : Expr) : (e.inline constant?).inline constant? = e.inline constant? := by
  induction e with
  | instanceField i f receiver ih => simp only [inline, ih]
  | binary i op lhs rhs ihl ihr => simp only [inline, ihl, ihr]
  | staticField i f =>
    cases h : constant? f with
    | none => simp only [inline, h]
    | some value => simp only [inline, h]
  | _ => rfl

/-- Without constants nothing is inlined. -/
lemma inline_of_none (h : ∀ f, constant? f = none) (e : Expr) : e.inline constant? = e := by
  induction e with
  | instanceField i f receiver ih => rw [inline, ih]
  | binary i op lhs rhs ihl ihr => rw [inline, ihl, ihr]
  | staticField i f => simp only [inline, h]
  | _ => rfl

end Expr

/-! ## Declarations -/

/-- Inlines constants in a method: in its body, and in the initializers of those local variables
that an anchor in its body stands for. -/
def Method.inlined (constant? : FieldId → Option Literal) (m : Method) : Method :=
  { m with
    body := m.body.map (Block.mapExpr (Expr.inline constant?))
    locals := m.locals.mapIdx fun i v =>
      if .localVar i ∈ m.slots then v.mapInitializer (Expr.inline constant?) else v }

/-- Whether some anchor of a type stands for the field at an index. -/
def DeclaredType.anchorsField (t : DeclaredType) (index : Nat) : Bool :=
  t.methods.any fun m => .field ⟨m.owner, index⟩ ∈ m.slots

/-- Inlines the constants of a type in its methods, and in the initializers of those fields that an
anchor stands for. -/
def DeclaredType.inlined (t : DeclaredType) : DeclaredType :=
  { t with
    fields := t.fields.mapIdx fun i f =>
      if t.anchorsField i then f.mapInitializer (Expr.inline t.constant?) else f
    methods := t.methods.map (Method.inlined t.constant?) }

/-! ## One substitution for any number of anchors -/

/-- A change that is done once and for all can be repeated any number of times. -/
lemma iterate_of_idempotent {α : Type} {f : α → α} (h : ∀ x, f (f x) = f x) (n : Nat) (x : α) :
    f^[n] x = if 0 < n then f x else x := by
  cases n with
  | zero => rfl
  | succ n =>
    -- After the first time, nothing changes any more.
    rw [Function.iterate_succ_apply, Function.iterate_fixed (h x), if_pos n.succ_pos]

section Idempotent

variable {constant? : FieldId → Option Literal}

/-- The initializer of a variable is inlined once and for all. -/
lemma Variable.inline_inline (v : Variable) :
    (v.mapInitializer (Expr.inline constant?)).mapInitializer (Expr.inline constant?) =
      v.mapInitializer (Expr.inline constant?) := by
  simp only [mapInitializer, Option.map_map, Function.comp_def, Expr.inline_inline]

lemma Field.inline_inline (f : Field) :
    (f.mapInitializer (Expr.inline constant?)).mapInitializer (Expr.inline constant?) =
      f.mapInitializer (Expr.inline constant?) := by
  simp only [mapInitializer, Variable.inline_inline]

end Idempotent

/-- A walk of a method by the inliner leaves it inlined, however often a variable is anchored. -/
lemma Method.rewrite_eq_inlined (constant? : FieldId → Option Literal) (m : Method) :
    m.rewrite (Expr.constantRead? constant?) = m.inlined constant? := by
  have hexpr : Expr.rewrite (Expr.constantRead? constant?) = Expr.inline constant? :=
    funext Expr.rewrite_constantRead?
  simp only [rewrite, inlined, hexpr, iterate_of_idempotent Variable.inline_inline,
    List.count_pos_iff]

/-- A field is visited in some method just when an anchor stands for it. -/
lemma DeclaredType.sum_visitsOf_pos_iff {t : DeclaredType} {index : Nat} :
    0 < (t.methods.map (Method.visitsOf index)).sum ↔ t.anchorsField index = true := by
  simp [List.sum_pos_iff_exists_pos_nat, anchorsField, Method.visitsOf]

/-- A walk of a type by the inliner leaves it inlined. -/
lemma DeclaredType.rewrite_eq_inlined (t : DeclaredType) :
    t.rewrite (Expr.constantRead? t.constant?) = t.inlined := by
  have hexpr : Expr.rewrite (Expr.constantRead? t.constant?) = Expr.inline t.constant? :=
    funext Expr.rewrite_constantRead?
  have hmethod : Method.rewrite (Expr.constantRead? t.constant?) = Method.inlined t.constant? :=
    funext (Method.rewrite_eq_inlined t.constant?)
  simp only [rewrite, inlined, hexpr, hmethod, iterate_of_idempotent Field.inline_inline,
    sum_visitsOf_pos_iff]

/-! ## Types that stay as they are -/

/-- A method stays as it is if the expressions do that a walk of it comes to. -/
lemma Method.inlined_self {constant? : FieldId → Option Literal} {fields : List Field} {m : Method}
    (h : ∀ e ∈ m.walked fields, e.inline constant? = e) : m.inlined constant? = m := by
  have hbody : m.body.map (Block.mapExpr (Expr.inline constant?)) = m.body := by
    cases hb : m.body with
    | none => rfl
    | some b =>
      rw [Option.map_some, Block.mapExpr_self]
      intro e he
      exact h e (mem_walked_of_expr (by rwa [events, hb]))
  have hlocals : (m.locals.mapIdx fun i v =>
      if .localVar i ∈ m.slots then v.mapInitializer (Expr.inline constant?) else v) =
        m.locals := by
    -- Only anchored variables are looked into, and the walk comes to the initializer of each.
    refine List.ext_getElem? fun i => ?_
    rw [List.getElem?_mapIdx]
    cases hv : m.locals[i]? with
    | none => rfl
    | some v =>
      by_cases hi : .localVar i ∈ m.slots
      · obtain ⟨a, ha, hslot⟩ := List.mem_map.mp hi
        rw [Option.map_some, if_pos hi, Variable.mapInitializer_self]
        intro e he
        refine h e (mem_walked_of_anchor (d := .localVar v) ha ?_ he)
        rw [hslot, Scope.resolve?, hv, Option.map_some]
      · rw [Option.map_some, if_neg hi]
  rw [inlined, hbody, hlocals]

namespace DeclaredType

variable {t : DeclaredType}

/-- Where a field is anchored, there is a method that has it in reach. -/
lemma exists_anchor_of_anchorsField {i : Nat} (h : t.anchorsField i = true) :
    ∃ m ∈ t.methods, ∃ a ∈ m.anchors, a.slot = .field ⟨m.owner, i⟩ := by
  rw [anchorsField, List.any_eq_true] at h
  obtain ⟨m, hm, hslot⟩ := h
  obtain ⟨a, ha, hslot⟩ := List.mem_map.mp (of_decide_eq_true hslot)
  exact ⟨m, hm, a, ha, hslot⟩

/-- A type stays as it is if the expressions do that a walk of it comes to. -/
lemma inlined_self (h : ∀ e ∈ t.walked, e.inline t.constant? = e) : t.inlined = t := by
  have hfields : (t.fields.mapIdx fun i f =>
      if t.anchorsField i then f.mapInitializer (Expr.inline t.constant?) else f) = t.fields := by
    refine List.ext_getElem? fun i => ?_
    rw [List.getElem?_mapIdx]
    cases hx : t.fields[i]? with
    | none => rfl
    | some x =>
      by_cases hi : t.anchorsField i = true
      · obtain ⟨m, hm, a, ha, hslot⟩ := exists_anchor_of_anchorsField hi
        rw [Option.map_some, if_pos hi, Field.mapInitializer_self]
        intro e he
        refine h e (List.mem_flatMap.mpr ⟨m, hm, ?_⟩)
        refine Method.mem_walked_of_anchor (d := .field x) ha ?_ he
        rw [hslot, Scope.resolve?, if_pos rfl, hx, Option.map_some]
      · rw [Option.map_some, if_neg hi]
  have hmethods : t.methods.map (Method.inlined t.constant?) = t.methods := by
    -- The methods share the look-up, so each is dealt with by itself.
    refine (List.map_congr_left fun m hm => ?_).trans (List.map_id _)
    exact Method.inlined_self fun e he => h e (List.mem_flatMap.mpr ⟨m, hm, he⟩)
  rw [inlined, hfields, hmethods]

/-- A type in which no field is a constant with a literal has no constants. -/
lemma constant?_eq_none (h : t.hasConstants = false) (id : FieldId) : t.constant? id = none := by
  rw [hasConstants, List.any_eq_false] at h
  rw [constant?, field?]
  split
  · cases hf : t.fields[id.index]? with
    | none => rfl
    | some f => simpa using h f (List.mem_of_getElem? hf)
  · rfl

lemma inlined_of_hasConstants (h : t.hasConstants = false) : t.inlined = t :=
  inlined_self fun e _ => Expr.inline_of_none (constant?_eq_none h) e

end DeclaredType

/-! ## The pass -/

/-- The inliner as a rewriter. -/
def Rewriter.inliner (constant? : FieldId → Option Literal) : Rewriter Unit where
  replacement? := Expr.constantRead? constant?

/-- The inliner is the visitor of its rewriter, hook by hook. -/
lemma inliner_eq_visitor (constant? : FieldId → Option Literal) :
    inliner constant? = (Rewriter.inliner constant?).visitor := by
  refine congrArg (fun hook => ({ endVisitExpr := hook } : Visitor Unit)) ?_
  funext s
  obtain ⟨e, c, own⟩ := s
  cases e with
  | staticField i f =>
    simp only [Rewriter.consult, Rewriter.inliner, Expr.constantRead?, bind_apply, node_apply,
      modify_apply]
    cases constant? f <;> rfl
  | _ => rfl

theorem inliner_rewrites (constant? : FieldId → Option Literal) :
    (inliner constant?).Rewrites (Rewriter.inliner constant?) := by
  rw [inliner_eq_visitor]
  exact (Rewriter.inliner constant?).visitor_rewrites

/-- The pass fails just when the type has constants and an anchor that does not resolve, and leaves
the substituted type if it does not fail. -/
theorem inlineConstants_run (t : DeclaredType) :
    match if t.hasConstants then t.dangling? else none with
    | some f => ∃ t', inlineConstants.run t = .error f t'
    | none => ∃ changed, inlineConstants.run t = .ok changed t.inlined := by
  have hwalk := (inliner_rewrites t.constant?).walkType t {} ()
  simp only [inlineConstants]
  cases hc : t.hasConstants with
  -- The pass does not walk a type without constants, and there is nothing to substitute in it.
  | false => exact ⟨false, by simp [DeclaredType.inlined_of_hasConstants hc]⟩
  | true =>
    simp only [if_true]
    cases hd : t.dangling? with
    | some f =>
      simp only [hd] at hwalk
      obtain ⟨s, hs⟩ := hwalk
      exact ⟨s.node, by rw [hs]⟩
    | none =>
      simp only [hd] at hwalk
      obtain ⟨offered, hs, -⟩ := hwalk
      exact ⟨_, by rw [hs]; simp only [← DeclaredType.rewrite_eq_inlined]; rfl⟩

/-- A run without failure puts the literals of the constants in the place of their static reads, in
bodies and in the initializers that an anchor stands for, and changes nothing else. -/
theorem eq_inlined_of_run_eq_ok {t t' : DeclaredType} {changed : Bool}
    (h : inlineConstants.run t = .ok changed t') : t' = t.inlined := by
  have hrun := inlineConstants_run t
  cases hd : if t.hasConstants then t.dangling? else none with
  | some f =>
    simp only [hd] at hrun
    obtain ⟨t₁, hrun⟩ := hrun
    rw [hrun] at h
    cases h
  | none =>
    simp only [hd] at hrun
    obtain ⟨changed', hrun⟩ := hrun
    rw [hrun] at h
    cases h
    rfl

/-- The pass does not fail where every anchor resolves. -/
lemma exists_run_eq_ok {t : DeclaredType} (h : t.dangling? = none) :
    ∃ changed, inlineConstants.run t = .ok changed t.inlined := by
  have hrun := inlineConstants_run t
  rwa [h, ite_self] at hrun

/-- A class with a constant and a second field that is initialized from it. -/
def DeclaredType.withConstant : DeclaredType :=
  let constant := Field.new .synthetic (.ofChar 'K') 0 (.primitive .int) true .constant
  let reader := Field.new .synthetic (.ofChar 'v') 0 (.primitive .int) true .plain
  ((DeclaredType.new .synthetic 0 "C" .classType none).insertField
    (constant.declare ⟨.synthetic, .literal .synthetic (.int 1)⟩)).insertField
      (reader.declare ⟨.synthetic, .staticField .synthetic ⟨0, 0⟩⟩)

/-- The second field of that class is initialized with the constant's literal by the pass. -/
theorem inlined_withConstant :
    ∃ t, inlineConstants.run .withConstant = .ok true t ∧ t = DeclaredType.inlined .withConstant ∧
      t.fields.map (·.literal?) = [some (.int 1), some (.int 1)] := by
  have h : (match inlineConstants.run .withConstant with
      | .ok true t => t.fields.map (·.literal?) == [some (.int 1), some (.int 1)]
      | _ => false) = true := by decide +kernel
  cases hrun : inlineConstants.run .withConstant with
  | error f t =>
    rw [hrun] at h
    cases h
  | ok changed t =>
    rw [hrun] at h
    cases changed with
    | false => cases h
    | true => exact ⟨t, rfl, eq_inlined_of_run_eq_ok hrun, by simpa using h⟩

end DeclIR
