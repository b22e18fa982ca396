import DeclIR.Proofs.Consistency.FirstFault

/-!
# When a declared type is consistent

A type has no fault just when its fields are legal, its anchors fit the methods they stand in, and
each field has exactly one anchor.  There is one equivalence for each rule that the checker goes by,
and the criterion puts them together.
-/

namespace DeclIR

open Checker

/-! ## Fields -/

/-- The flags of a field agree with one another, and its owner is the type `owner`. -/
structure Field.Legal (f : Field) (owner : TypeId) : Prop where
  not_final_and_volatile : ¬(f.isFinal = true ∧ f.isVolatile = true)
  final_of_constant : f.isConstant = true → f.isFinal = true
  final_of_capture : f.isCapture = true → f.isFinal = true ∧ f.isStatic = false
  owner_eq : f.owner = owner

/-- The flags of a field are in order just when no two of them contradict each other. -/
lemma Field.flagViolation?_eq_none_iff {f : Field} :
    f.flagViolation? = none ↔ ¬(f.isFinal = true ∧ f.isVolatile = true) ∧
      (f.isConstant = true → f.isFinal = true) ∧
      (f.isCapture = true → f.isFinal = true ∧ f.isStatic = false) := by
  rw [flagViolation?]
  cases f.isFinal <;> cases f.isVolatile <;> cases f.isConstant <;> cases f.isCapture <;>
    cases f.isStatic <;> simp

/-- There is nothing to report about a field just when it is legal for the type around it. -/
lemma Field.violation?_eq_none_iff {f : Field} {owner : TypeId} :
    f.violation? (some owner) = none ↔ f.Legal owner := by
  rw [violation?]
  cases h : f.flagViolation? with
  -- The owner is looked at only if the flags are in order.
  | some v =>
    constructor
    · intro hv
      cases hv
    · rintro ⟨hboth, hconstant, hcapture, -⟩
      rw [flagViolation?_eq_none_iff.mpr ⟨hboth, hconstant, hcapture⟩] at h
      cases h
  | none =>
    obtain ⟨hboth, hconstant, hcapture⟩ := flagViolation?_eq_none_iff.mp h
    constructor
    · intro hv
      by_cases howner : some owner = some f.owner
      · exact ⟨hboth, hconstant, hcapture, (Option.some.inj howner).symm⟩
      · simp only [if_neg howner] at hv
        cases hv
    · intro hlegal
      simp [hlegal.owner_eq]

/-! ## Anchors -/

/-- The index of the field that an anchor stands for, if it is a field's. -/
def Anchor.fieldIndex? (a : Anchor) : Option Nat :=
  match a.slot with
  | .field id => some id.index
  | .localVar _ => none

/-- An anchor in a method of a type stands for a local variable of the method, or for a field of
the type that the method initializes. -/
def Anchor.Fits (a : Anchor) (t : DeclaredType) (m : Method) : Prop :=
  match a.slot with
  | .localVar i => i < m.locals.length
  | .field id =>
    id.owner = m.owner ∧
      (m.name = staticInitializerName ∨ m.name = instanceInitializerName) ∧
      ∃ f, t.fields[id.index]? = some f ∧ m.isStatic = f.isStatic

/-- Initializers are told by their names. -/
lemma Method.isInitializer_iff {m : Method} :
    m.isInitializer = true ↔
      m.name = staticInitializerName ∨ m.name = instanceInitializerName := by
  simp [isInitializer]

/-- A field may be anchored in an initializer of its own staticness and nowhere else. -/
lemma Field.anchorViolation?_eq_none_iff {f : Field} {index : Nat} {m : Method} :
    f.anchorViolation? index (initializerOf m) = none ↔
      (m.name = staticInitializerName ∨ m.name = instanceInitializerName) ∧
        m.isStatic = f.isStatic := by
  rw [← Method.isInitializer_iff, initializerOf]
  cases h : m.isInitializer with
  | false => simp [anchorViolation?]
  | true => simp [anchorViolation?]

/-- There is nothing to report about an anchor just when it fits its method and type. -/
lemma Checker.siteFault?_eq_none_iff {t : DeclaredType} {m : Method} {a : Anchor} {k : Checker} :
    siteFault? ⟨m.owner, t.fields, m.locals⟩ { k with initializer := initializerOf m } a = none ↔
      a.Fits t m := by
  obtain ⟨info, slot⟩ := a
  cases slot with
  | localVar i =>
    by_cases h : i < m.locals.length
    · simp [siteFault?, Scope.resolve?, Anchor.Fits, h]
    · simp [siteFault?, Scope.resolve?, Anchor.Fits, h]
  | field id =>
    by_cases howner : id.owner = m.owner
    · cases hf : t.fields[id.index]? with
      | none => simp [siteFault?, Scope.resolve?, Anchor.Fits, howner, hf]
      | some f =>
        simp [siteFault?, Scope.resolve?, Anchor.Fits, howner, hf, anchorFault?,
          Field.anchorViolation?_eq_none_iff]
    · simp [siteFault?, Scope.resolve?, Anchor.Fits, howner]

/-- There is nothing to report about a method just when all its anchors fit. -/
lemma Checker.methodFault?_eq_none_iff {t : DeclaredType} {m : Method} {k : Checker} :
    methodFault? t.fields k m = none ↔ ∀ a ∈ m.anchors, a.Fits t m := by
  simp only [methodFault?, List.findSome?_eq_none_iff, siteFault?_eq_none_iff]

/-! ## The number of anchors -/

/-- The anchors of all methods of a type. -/
def DeclaredType.anchors (t : DeclaredType) : List Anchor := t.methods.flatMap Method.anchors

/-- The number of anchors that stand for the field at an index. -/
def DeclaredType.anchorCount (t : DeclaredType) (index : Nat) : Nat :=
  t.anchors.countP (·.fieldIndex? = some index)

/-- The number of anchors of a field is right just when it is one. -/
lemma Field.countViolation?_eq_none_iff {f : Field} {sites : List Provenance} :
    f.countViolation? sites = none ↔ sites.length = 1 := by
  match sites with
  | [] => simp [countViolation?]
  | [_] => simp [countViolation?]
  | _ :: _ :: _ => simp [countViolation?]

/-- The anchors of the field at an index in walk order. -/
def DeclaredType.fieldAnchorsAt (t : DeclaredType) (index : Nat) : List Anchor :=
  t.anchors.filter (·.fieldIndex? = some index)

/-- The checker has seen each anchor of a field once, in walk order. -/
lemma sites_eq (t : DeclaredType) (index : Nat) :
    ({ typeName := t.name, anchors := t.fieldSites } : Checker).sites index =
      (t.fieldAnchorsAt index).map (·.info) := by
  have hsites : t.fieldSites = t.anchors.filterMap site? := by
    rw [DeclaredType.fieldSites, DeclaredType.anchors, List.filterMap_flatMap]
  -- An anchor counts for a field just when the checker notes it as one of that field's.
  have hsite (a : Anchor) : (site? a).filter (·.1 = index) =
      if a.fieldIndex? = some index then some (index, a.info) else none := by
    obtain ⟨info, slot⟩ := a
    cases slot with
    | localVar i => simp [site?, Anchor.fieldIndex?]
    | field id =>
      by_cases h : id.index = index
      · simp [site?, Anchor.fieldIndex?, h]
      · simp [site?, Anchor.fieldIndex?, h]
  rw [sites, hsites, DeclaredType.fieldAnchorsAt, List.filter_filterMap, List.map_filterMap,
    ← List.filterMap_eq_map, List.filterMap_filter]
  refine List.filterMap_congr fun a _ => ?_
  rw [hsite]
  by_cases h : a.fieldIndex? = some index
  · simp [h]
  · simp [h]

/-- The checker has logged as many sites of a field as there are anchors for it in the methods. -/
lemma length_sites (t : DeclaredType) (index : Nat) :
    (({ typeName := t.name, anchors := t.fieldSites } : Checker).sites index).length =
      t.anchorCount index := by
  rw [sites_eq, List.length_map, DeclaredType.fieldAnchorsAt, ← List.countP_eq_length_filter,
    DeclaredType.anchorCount]

/-- There is nothing to report about the numbers just when each field has one anchor. -/
lemma countFault?_eq_none_iff (t : DeclaredType) :
    ({ typeName := t.name, anchors := t.fieldSites } : Checker).countFault? t.fields = none ↔
      ∀ i < t.fields.length, t.anchorCount i = 1 := by
  simp only [countFault?, List.findSome?_eq_none_iff, Option.map_eq_none_iff,
    Field.countViolation?_eq_none_iff, length_sites]
  constructor
  · intro h i hi
    exact h (t.fields[i], i) (List.mem_zipIdx_iff_getElem?.mpr (by simp [hi]))
  · intro h x hx
    have hget := List.mem_zipIdx_iff_getElem?.mp hx
    exact h x.2 (List.getElem?_eq_some_iff.mp hget).1

/-! ## The criterion -/

/-- A type has no fault just when each part of it follows the rules. -/
lemma DeclaredType.firstFault?_eq_none_iff (t : DeclaredType) :
    t.firstFault? = none ↔
      (∀ f ∈ t.fields, f.Legal t.id) ∧
      (∀ m ∈ t.methods, ∀ a ∈ m.anchors, a.Fits t m) ∧
      ∀ i < t.fields.length, t.anchorCount i = 1 := by
  simp only [firstFault?, Option.or_eq_none_iff, List.findSome?_eq_none_iff,
    methodFault?_eq_none_iff, countFault?_eq_none_iff, fieldFault?, Option.map_eq_none_iff,
    Field.violation?_eq_none_iff]

/-- A check succeeds just when there is no first fault. -/
lemma DeclaredType.verify_eq_ok {t : DeclaredType} :
    t.verify = .ok () ↔ t.firstFault? = none := by
  rw [verify_eq]
  cases t.firstFault? <;> simp

/-- The check of a program is one of each type. -/
lemma Program.verify_eq_ok {p : Program} :
    p.verify = .ok () ↔ ∀ t ∈ p.types, t.firstFault? = none := by
  rw [verify_eq, ← List.findSome?_eq_none_iff]
  cases p.types.findSome? DeclaredType.firstFault? <;> simp

/-- A type passes the check just when its fields are legal, each anchor at any depth of its bodies
fits the method it stands in, and each field has exactly one anchor. -/
theorem DeclaredType.verify_eq_ok_iff (t : DeclaredType) :
    t.verify = .ok () ↔
      (∀ f ∈ t.fields, f.Legal t.id) ∧
      (∀ m ∈ t.methods, ∀ a ∈ m.anchors, a.Fits t m) ∧
      ∀ i < t.fields.length, t.anchorCount i = 1 := by
  rw [← firstFault?_eq_none_iff, verify_eq]
  cases t.firstFault? with
  | none => simp
  | some f => simp

end DeclIR
