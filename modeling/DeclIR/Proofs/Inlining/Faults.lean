import DeclIR.Proofs.Consistency.Criterion
import DeclIR.Proofs.Inlining.Substitution

/-!
# Inlining and consistency

Substitution changes expressions only, and none of the rules for a declared type is about
expressions.  So a type is consistent after inlining just when it was before, and on a consistent
type the pass does not fail: each anchor of it resolves.
-/

namespace DeclIR

/-! ## What substitution keeps -/

/-- Whether a field is legal does not depend on its initializer. -/
lemma Field.legal_mapInitializer {f : Expr → Expr} {x : Field} {owner : TypeId} :
    (x.mapInitializer f).Legal owner ↔ x.Legal owner :=
  ⟨fun h => ⟨h.not_final_and_volatile, h.final_of_constant, h.final_of_capture, h.owner_eq⟩,
    fun h => ⟨h.not_final_and_volatile, h.final_of_constant, h.final_of_capture, h.owner_eq⟩⟩

/-- Inlining leaves all anchors of a method. -/
lemma Method.anchors_inlined (constant? : FieldId → Option Literal) (m : Method) :
    (m.inlined constant?).anchors = m.anchors := by
  simp only [anchors, inlined]
  cases m.body with
  | none => rfl
  | some b => exact Block.anchors_mapExpr _ b

namespace DeclaredType

variable {t : DeclaredType}

/-- The fields are those from before, with inlined initializers where an anchor stands for them. -/
lemma fields_inlined_getElem? (t : DeclaredType) (i : Nat) :
    t.inlined.fields[i]? = (t.fields[i]?).map fun f =>
      if t.anchorsField i then f.mapInitializer (Expr.inline t.constant?) else f := by
  rw [inlined, List.getElem?_mapIdx]

lemma forall_legal_inlined :
    (∀ f ∈ t.inlined.fields, f.Legal t.id) ↔ ∀ f ∈ t.fields, f.Legal t.id := by
  have hlegal (i : Nat) (f : Field) :
      (if t.anchorsField i then f.mapInitializer (Expr.inline t.constant?) else f).Legal t.id ↔
        f.Legal t.id := by
    split
    · exact Field.legal_mapInitializer
    · exact Iff.rfl
  simp only [List.forall_mem_iff_getElem, inlined, List.length_mapIdx, List.getElem_mapIdx, hlegal]

/-- Whether an anchor fits is not changed by inlining. -/
lemma fits_inlined {m : Method} {a : Anchor} :
    a.Fits t.inlined (m.inlined t.constant?) ↔ a.Fits t m := by
  rw [Anchor.Fits, Anchor.Fits]
  cases a.slot with
  | localVar i => simp only [Method.inlined, List.length_mapIdx]
  | field id =>
    have hstatic (f : Field) :
        (if t.anchorsField id.index then f.mapInitializer (Expr.inline t.constant?)
          else f).isStatic = f.isStatic := by
      split <;> rfl
    simp only [fields_inlined_getElem?, Option.map_eq_some_iff, Method.inlined]
    constructor
    · rintro ⟨howner, hname, _, ⟨f, hf, rfl⟩, h⟩
      exact ⟨howner, hname, f, hf, h.trans (hstatic f)⟩
    · rintro ⟨howner, hname, f, hf, h⟩
      exact ⟨howner, hname, _, ⟨f, hf, rfl⟩, h.trans (hstatic f).symm⟩

lemma anchorCount_inlined (t : DeclaredType) : t.inlined.anchorCount = t.anchorCount := by
  have hanchors : t.inlined.anchors = t.anchors := by
    simp only [anchors, inlined, List.flatMap_map, Method.anchors_inlined]
  funext i
  rw [anchorCount, anchorCount, hanchors]

/-- Inlining neither brings a fault in nor takes one away. -/
theorem firstFault?_inlined_eq_none_iff :
    t.inlined.firstFault? = none ↔ t.firstFault? = none := by
  -- The three rules of the criterion are kept one by one.
  have hid : t.inlined.id = t.id := rfl
  have hlength : t.inlined.fields.length = t.fields.length := List.length_mapIdx
  have hfits : (∀ m ∈ t.inlined.methods, ∀ a ∈ m.anchors, a.Fits t.inlined m) ↔
      ∀ m ∈ t.methods, ∀ a ∈ m.anchors, a.Fits t m := by
    have hmethods : t.inlined.methods = t.methods.map (Method.inlined t.constant?) := rfl
    simp only [hmethods, List.forall_mem_map, Method.anchors_inlined, fits_inlined]
  rw [firstFault?_eq_none_iff, firstFault?_eq_none_iff, hid, forall_legal_inlined, hfits,
    anchorCount_inlined, hlength]

/-! ## Anchors of a consistent type -/

/-- An anchor that fits its method resolves there. -/
lemma dangling?_eq_none_of_fits {m : Method} {a : Anchor} (h : a.Fits t m) :
    Scope.dangling? ⟨m.owner, t.fields, m.locals⟩ a = none := by
  obtain ⟨info, slot⟩ := a
  cases slot with
  | localVar i => simp [Scope.dangling?, Scope.resolve?, List.getElem?_eq_getElem h]
  | field id =>
    obtain ⟨howner, -, f, hf, -⟩ := h
    simp [Scope.dangling?, Scope.resolve?, howner, hf]

/-- Whether an anchor resolves is not changed by inlining. -/
lemma dangling?_inlined (t : DeclaredType) : t.inlined.dangling? = t.dangling? := by
  have hmethod (m : Method) :
      (m.inlined t.constant?).dangling? t.inlined.fields = m.dangling? t.fields := by
    rw [Method.dangling?, Method.dangling?, Method.anchors_inlined]
    have hscope : Scope.dangling? ⟨m.owner, t.inlined.fields, (m.inlined t.constant?).locals⟩ =
        Scope.dangling? ⟨m.owner, t.fields, m.locals⟩ :=
      Scope.dangling?_congr rfl List.length_mapIdx List.length_mapIdx
    exact congrArg m.anchors.findSome? hscope
  rw [dangling?, dangling?]
  simp only [inlined, List.findSome?_map] at hmethod ⊢
  exact congrArg t.methods.findSome? (funext hmethod)

/-- Each anchor of a type without faults resolves. -/
lemma dangling?_eq_none (h : t.firstFault? = none) : t.dangling? = none := by
  obtain ⟨-, hfits, -⟩ := t.firstFault?_eq_none_iff.mp h
  simp only [dangling?, Method.dangling?, List.findSome?_eq_none_iff]
  exact fun m hm a ha => dangling?_eq_none_of_fits (hfits m hm a ha)

end DeclaredType
end DeclIR
