import DeclIR.Proofs.Inlining.Faults

/-!
# What inlining leaves to read

Inlining takes away the static reads of constants that have a literal before, and no others
(`DeclaredType.reads_inlined`).  It is a change just when there is such a read
(`DeclaredType.inlined_eq_self_iff`), and the pass says so.

An initializer that is itself the read of a constant becomes a literal.  If it is that of a
constant, there is one more constant with a literal afterwards (`DeclaredType.Promotes`), and the
reads of that one are still there.
-/

namespace DeclIR

/-! ## Expressions -/

namespace Expr

variable {constant? : FieldId → Option Literal}

/-- The reads of constants are the only expressions that are replaced. -/
lemma settled_iff {e : Expr} :
    e.Settled (constantRead? constant?) ↔ ∀ f ∈ e.reads, constant? f = none := by
  rw [Settled]
  induction e with
  | instanceField i f receiver ih =>
    have hself (e : Expr) : constantRead? constant? (.instanceField i f e) = none := rfl
    simp only [offered, reads, List.forall_mem_append, ih, List.forall_mem_singleton, hself,
      and_true]
  | binary i op lhs rhs ihl ihr =>
    have hself (e e' : Expr) : constantRead? constant? (.binary i op e e') = none := rfl
    simp only [offered, reads, List.forall_mem_append, ihl, ihr, List.forall_mem_singleton, hself,
      and_true]
  | _ => simp [offered, reads, constantRead?]

/-- The reads that have a literal are taken away, and the others are left. -/
lemma reads_inline (e : Expr) :
    (e.inline constant?).reads = e.reads.filter fun f => (constant? f).isNone := by
  induction e with
  | instanceField i f receiver ih => rw [inline, reads, reads, ih]
  | binary i op lhs rhs ihl ihr => rw [inline, reads, reads, ihl, ihr, List.filter_append]
  | staticField i f =>
    cases h : constant? f with
    | none => simp [inline, reads, h]
    | some value => simp [inline, reads, h]
  | _ => rfl

/-- An expression stays as it is just when it reads no constant. -/
lemma inline_eq_self_iff {e : Expr} :
    e.inline constant? = e ↔ ∀ f ∈ e.reads, constant? f = none := by
  constructor
  · intro h f hf
    rw [← h, reads_inline, List.mem_filter] at hf
    exact Option.isNone_iff_eq_none.mp hf.2
  · intro h
    rw [← rewrite_constantRead?]
    exact (settled_iff.mpr h).rewrite

/-- The operands of an inlined expression are inlined. -/
lemma operands_inline (e : Expr) :
    (e.inline constant?).operands = e.operands.map (inline constant?) := by
  cases e with
  | staticField i f =>
    rw [inline]
    cases constant? f <;> rfl
  | _ => rfl

/-- What is left at a place is what was there, with literals in the place of its reads. -/
lemma at?_inline (path : List Nat) (e : Expr) :
    (e.inline constant?).at? path = (e.at? path).map (inline constant?) := by
  induction path generalizing e with
  | nil => rfl
  | cons i path ih =>
    rw [at?, at?, operands_inline, List.getElem?_map]
    cases e.operands[i]? with
    | none => rfl
    | some x => exact ih x

/-- The constant that an expression reads, if it is a read and nothing else. -/
def read? : Expr → Option FieldId
  | .staticField _ f => some f
  | _ => none

lemma literal?_of_read? {e : Expr} {f : FieldId} (h : e.read? = some f) : e.literal? = none := by
  cases e with
  | literal i v => cases h
  | _ => rfl

/-- The read of a constant becomes its literal, at the place of the read. -/
lemma inline_of_read? {e : Expr} {f : FieldId} {value : Literal} (h : e.read? = some f)
    (hvalue : constant? f = some value) : e.inline constant? = .literal e.info value := by
  cases e with
  | staticField i g =>
    cases h
    rw [inline, hvalue, info]
  | _ => cases h

/-- An inlined expression is a literal if it was one or was the read of a constant. -/
lemma literal?_inline (e : Expr) :
    (e.inline constant?).literal? = e.literal?.or (e.read?.bind constant?) := by
  cases e with
  | staticField i f =>
    rw [inline, read?, Option.bind_some]
    cases constant? f <;> rfl
  | _ => rfl

end Expr

/-! ## Declarations -/

/-- The events of an inlined method are those from before, with inlined expressions. -/
lemma Method.events_inlined (constant? : FieldId → Option Literal) (m : Method) :
    (m.inlined constant?).events = m.events.map (Event.mapExpr (Expr.inline constant?)) := by
  simp only [events, inlined]
  cases m.body with
  | none => rfl
  | some b => exact Block.events_mapExpr _ b

/-- A literal stands for a constant after inlining if its initializer was a literal before or was
the read of a constant that has one. -/
lemma Field.constant?_inline (constant? : FieldId → Option Literal) (x : Field) :
    (x.mapInitializer (Expr.inline constant?)).constant? =
      if x.isConstant then x.initializer?.bind fun e => e.literal?.or (e.read?.bind constant?)
      else none := by
  rw [Field.constant?, Field.literal?, mapInitializer, Variable.initializer?_mapInitializer,
    Option.bind_map]
  simp only [Function.comp_def, Expr.literal?_inline]

namespace DeclaredType

variable {t : DeclaredType}

/-- The variable that an anchor stands for has its initializer inlined. -/
lemma exprAt?_inlined {m : Method} {x : Event} (hm : m ∈ t.methods) (hx : x ∈ m.events) :
    Scope.exprAt? ⟨m.owner, t.inlined.fields, (m.inlined t.constant?).locals⟩
        (x.mapExpr (Expr.inline t.constant?)) =
      (Scope.exprAt? ⟨m.owner, t.fields, m.locals⟩ x).map (Expr.inline t.constant?) := by
  cases x with
  | expr e => rfl
  | anchor a =>
    have hslot : a.slot ∈ m.slots := List.mem_map_of_mem (Method.mem_anchors_iff.mpr hx)
    obtain ⟨info, slot⟩ := a
    cases slot with
    | localVar i =>
      simp only [Event.mapExpr, Scope.exprAt?, Scope.resolve?, Method.inlined, List.getElem?_mapIdx]
      cases m.locals[i]? with
      | none => rfl
      | some v => simp [if_pos hslot, Declared.base, Variable.initializer?_mapInitializer]
    | field id =>
      simp only [Event.mapExpr, Scope.exprAt?, Scope.resolve?, fields_inlined_getElem?]
      -- A field of another type is in reach of no anchor, before and after.
      by_cases howner : id.owner = m.owner
      · have hanchors : t.anchorsField id.index = true := by
          rw [anchorsField, List.any_eq_true]
          exact ⟨m, hm, by simpa [← howner] using hslot⟩
        rw [if_pos howner, if_pos howner, hanchors]
        cases t.fields[id.index]? with
        | none => rfl
        | some x => simp [Declared.base, Field.mapInitializer, Variable.initializer?_mapInitializer]
      · rw [if_neg howner, if_neg howner]
        rfl

/-- A walk of the inlined type comes to the inlined expressions. -/
theorem walked_inlined (t : DeclaredType) :
    t.inlined.walked = t.walked.map (Expr.inline t.constant?) := by
  have hmethod : ∀ m ∈ t.methods, (m.inlined t.constant?).walked t.inlined.fields =
      (m.walked t.fields).map (Expr.inline t.constant?) := by
    intro m hm
    rw [Method.walked, Method.walked, Method.events_inlined, List.filterMap_map,
      List.map_filterMap]
    exact List.filterMap_congr fun x hx => exprAt?_inlined hm hx
  rw [walked, walked, List.map_flatMap]
  simp only [inlined, List.flatMap_map]
  exact List.flatMap_congr hmethod

/-- Inlining takes away the reads of constants that have a literal, and leaves the others. -/
theorem reads_inlined (t : DeclaredType) :
    t.inlined.reads = t.reads.filter fun f => (t.constant? f).isNone := by
  rw [reads, reads, walked_inlined, List.flatMap_map, List.filter_flatMap]
  simp only [Expr.reads_inline]

/-! ## When inlining is a change -/

/-- A type stays as it is just when nothing in it reads a constant that has a literal. -/
theorem inlined_eq_self_iff : t.inlined = t ↔ ∀ f ∈ t.reads, t.constant? f = none := by
  constructor
  · intro h f hf
    rw [← h, reads_inlined, List.mem_filter] at hf
    exact Option.isNone_iff_eq_none.mp hf.2
  · intro h
    apply inlined_self
    intro e he
    exact Expr.inline_eq_self_iff.mpr fun f hf => h f (List.mem_flatMap.mpr ⟨e, he, hf⟩)

/-- A run without failure leaves the substituted type, and says that it changed the type just when
it did. -/
theorem of_run_eq_ok {t' : DeclaredType} {changed : Bool}
    (h : inlineConstants.run t = .ok changed t') :
    t' = t.inlined ∧ (changed = false ↔ t.inlined = t) := by
  rw [inlined_eq_self_iff]
  have hwalk := (inliner_rewrites t.constant?).walkType t {} ()
  simp only [inlineConstants] at h
  -- Without constants the type is not walked at all.
  cases hc : t.hasConstants with
  | false =>
    simp only [hc] at h
    cases h
    exact ⟨(inlined_of_hasConstants hc).symm, fun _ f _ => constant?_eq_none hc f, fun _ => rfl⟩
  | true =>
    simp only [hc, if_true] at h
    -- The walk succeeds, since the pass does.
    cases hd : t.dangling? with
    | some f =>
      rw [hd] at hwalk
      obtain ⟨s, hs⟩ := hwalk
      rw [hs] at h
      cases h
    | none =>
      rw [hd] at hwalk
      obtain ⟨offered, hs, hquiet⟩ := hwalk
      rw [hs] at h
      cases h
      refine ⟨t.rewrite_eq_inlined, ?_⟩
      -- The flag of the walk starts unset.
      simp only [Context.mark, Bool.false_or]
      rw [hquiet]
      simp only [Rewriter.inliner, Expr.settled_iff, reads, List.mem_flatMap]
      constructor
      · rintro h f ⟨e, he, hf⟩
        exact h e he f hf
      · intro h e he f hf
        exact h f ⟨e, he, hf⟩

/-! ## Constants after inlining -/

/-- Inlining makes `f` a constant with a literal: an anchor stands for it, and its initializer is
the read of a constant that has one. -/
def Promotes (t : DeclaredType) (f : FieldId) : Prop :=
  ∃ x e g, t.field? f = some x ∧ x.isConstant = true ∧ t.anchorsField f.index = true ∧
    x.initializer? = some e ∧ e.read? = some g ∧ t.constant? g ≠ none

/-- A field that is looked up after inlining is the one from before, with an inlined initializer if
it is anchored. -/
lemma field?_inlined (t : DeclaredType) (f : FieldId) :
    t.inlined.field? f = (t.field? f).map fun x =>
      if t.anchorsField f.index then x.mapInitializer (Expr.inline t.constant?) else x := by
  have hid : t.inlined.id = t.id := rfl
  rw [field?, field?, hid]
  split
  · exact fields_inlined_getElem? t f.index
  · rfl

/-- A constant that inlining gives a literal had none before. -/
lemma Promotes.constant?_eq_none {f : FieldId} (h : t.Promotes f) : t.constant? f = none := by
  obtain ⟨x, e, g, hx, -, -, he, hread, -⟩ := h
  rw [constant?, hx, Option.bind_some, Field.constant?, Field.literal?, he, Option.bind_some,
    Expr.literal?_of_read? hread, ite_self]

/-- The constants with a literal are those from before, and those that inlining gives one. -/
theorem constant?_inlined_ne_none_iff {f : FieldId} :
    t.inlined.constant? f ≠ none ↔ t.constant? f ≠ none ∨ t.Promotes f := by
  rw [constant?, constant?, field?_inlined, Promotes]
  cases hx : t.field? f with
  | none => simp
  | some x =>
    simp only [Option.map_some, Option.bind_some]
    by_cases hanchored : t.anchorsField f.index = true
    · rw [if_pos hanchored, Field.constant?_inline, Field.constant?, Field.literal?]
      cases hconstant : x.isConstant with
      | false => simp [hconstant]
      | true =>
        cases he : x.initializer? with
        | none => simp [he]
        | some e =>
          cases e <;> simp [he, Expr.literal?, Expr.read?, hconstant, hanchored]
    · simp [hanchored]

/-- A second substitution changes nothing, unless the first one has made a constant with a literal
of one that is read. -/
theorem inlined_inlined_eq_iff :
    t.inlined.inlined = t.inlined ↔ ∀ f ∈ t.reads, ¬t.Promotes f := by
  rw [inlined_eq_self_iff, reads_inlined]
  constructor
  · intro h f hf hp
    -- What is promoted has no literal before, so the first substitution leaves its reads.
    have hleft : f ∈ t.reads.filter fun f => (t.constant? f).isNone :=
      List.mem_filter.mpr ⟨hf, by rw [hp.constant?_eq_none]; rfl⟩
    exact constant?_inlined_ne_none_iff.mpr (.inr hp) (h f hleft)
  · intro h f hf
    obtain ⟨hf, hnone⟩ := List.mem_filter.mp hf
    by_contra hsome
    rcases constant?_inlined_ne_none_iff.mp hsome with hsome | hp
    · exact hsome (Option.isNone_iff_eq_none.mp hnone)
    · exact h f hf hp

end DeclaredType
end DeclIR
