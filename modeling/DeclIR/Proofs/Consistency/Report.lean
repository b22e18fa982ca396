import DeclIR.Proofs.Consistency.Criterion

/-!
# Which fault is reported

A declared type may break several rules, and the check reports one fault.  `DeclaredType.Reports`
says which, in terms of the type itself: a field with its flags and its owner comes before any
anchor, an anchor in the wrong place before any number of anchors, and each of the three goes by
the order of the fields or of the walk.  The check reports just this fault
(`DeclaredType.verify_eq_error_iff`).
-/

namespace DeclIR

open Checker

/-! ## Broken rules -/

/-- The rule that a field breaks as a field of the type `owner`: its flags come before its owner,
and being final and volatile comes before anything else that is wrong with them. -/
inductive Field.Breaks (f : Field) (owner : TypeId) : Violation → Prop
  | finalAndVolatile (hfinal : f.isFinal = true) (hvolatile : f.isVolatile = true) :
      Breaks f owner .finalAndVolatile
  | constantNotFinal (hconstant : f.isConstant = true) (hfinal : f.isFinal = false) :
      Breaks f owner .constantNotFinal
  | captureNotFinal (hcapture : f.isCapture = true) (hfinal : f.isFinal = false)
      (hconstant : f.isConstant = false) : Breaks f owner .captureNotFinal
  | captureStatic (hcapture : f.isCapture = true) (hstatic : f.isStatic = true)
      (hfinal : f.isFinal = true) (hvolatile : f.isVolatile = false) :
      Breaks f owner .captureStatic
  | foreignOwner (hflags : f.Legal f.owner) (howner : f.owner ≠ owner) :
      Breaks f owner (.foreignOwner f.owner)

/-- The fault of an anchor in a method of a type: it does not resolve, or it stands for a field in
a method that is no initializer or that initializes fields of the other staticness. -/
inductive Anchor.Raises (a : Anchor) (t : DeclaredType) (m : Method) : Fault → Prop
  | danglingLocal {i : Nat} (hslot : a.slot = .localVar i) (hindex : m.locals.length ≤ i) :
      Raises a t m (.danglingSlot a.slot a.info)
  | danglingField {id : FieldId} (hslot : a.slot = .field id)
      (hid : id.owner ≠ m.owner ∨ t.fields.length ≤ id.index) :
      Raises a t m (.danglingSlot a.slot a.info)
  | outsideInitializer {id : FieldId} {f : Field} (hslot : a.slot = .field id)
      (howner : id.owner = m.owner) (hf : t.fields[id.index]? = some f)
      (hname : ¬(m.name = staticInitializerName ∨ m.name = instanceInitializerName)) :
      Raises a t m (.violation t.name
        ((Violation.outsideInitializer id.index).text f.name.text) a.info)
  | wrongInitializer {id : FieldId} {f : Field} (hslot : a.slot = .field id)
      (howner : id.owner = m.owner) (hf : t.fields[id.index]? = some f)
      (hname : m.name = staticInitializerName ∨ m.name = instanceInitializerName)
      (hstatic : m.isStatic ≠ f.isStatic) :
      Raises a t m (.violation t.name (Violation.wrongInitializer.text f.name.text) a.info)

/-- The anchors of a type in walk order, each with the method that it stands in. -/
def DeclaredType.placements (t : DeclaredType) : List (Method × Anchor) :=
  t.methods.flatMap fun m => m.anchors.map (m, ·)

/-- The fault that is reported of a type. -/
inductive DeclaredType.Reports (t : DeclaredType) : Fault → Prop
  /-- A field is illegal, and no field before it is. -/
  | field {i : Nat} {x : Field} {v : Violation} (hx : t.fields[i]? = some x)
      (hbreaks : x.Breaks t.id v)
      (hfirst : ∀ j < i, ∀ y, t.fields[j]? = some y → y.Legal t.id) :
      Reports t (.violation t.name (v.text x.name.text) x.info)
  /-- The fields are legal, an anchor is at fault, and each anchor before it fits. -/
  | anchor {i : Nat} {m : Method} {a : Anchor} {f : Fault}
      (hfields : ∀ x ∈ t.fields, x.Legal t.id)
      (ha : t.placements[i]? = some (m, a)) (hraises : a.Raises t m f)
      (hfirst : ∀ j < i, ∀ n b, t.placements[j]? = some (n, b) → b.Fits t n) : Reports t f
  /-- Fields and anchors are in order, a field has no anchor, and those before it have one. -/
  | unanchored {i : Nat} {x : Field} (hfields : ∀ x ∈ t.fields, x.Legal t.id)
      (hanchors : ∀ m a, (m, a) ∈ t.placements → a.Fits t m)
      (hx : t.fields[i]? = some x) (hcount : t.anchorCount i = 0)
      (hfirst : ∀ j < i, t.anchorCount j = 1) :
      Reports t (.violation t.name ("field `" ++ x.name.text ++ "` has no declaration anchor")
        x.info)
  /-- Fields and anchors are in order, a field has a second anchor, and those before it have one
  each. -/
  | anchoredTimes {i : Nat} {x : Field} {second : Anchor} (hfields : ∀ x ∈ t.fields, x.Legal t.id)
      (hanchors : ∀ m a, (m, a) ∈ t.placements → a.Fits t m)
      (hx : t.fields[i]? = some x) (hsecond : (t.fieldAnchorsAt i)[1]? = some second)
      (hfirst : ∀ j < i, t.anchorCount j = 1) :
      Reports t (.violation t.name
        ("field `" ++ x.name.text ++ "` is anchored " ++ toString (t.anchorCount i) ++ " times")
        second.info)

/-! ## The first of a list -/

/-- What is found first is found at the lowest index where there is anything to be found. -/
lemma findSome?_eq_some_iff_getElem? {α β : Type} {f : α → Option β} {list : List α} {b : β} :
    list.findSome? f = some b ↔ ∃ (i : Nat) (x : α), list[i]? = some x ∧ f x = some b ∧
      ∀ j < i, ∀ y, list[j]? = some y → f y = none := by
  rw [List.findSome?_eq_some_iff]
  constructor
  · rintro ⟨before, x, after, rfl, hx, hbefore⟩
    refine ⟨before.length, x, by simp, hx, fun j hj y hy => hbefore y ?_⟩
    rw [List.getElem?_append_left hj] at hy
    exact List.mem_of_getElem? hy
  · rintro ⟨i, x, hx, hfx, hfirst⟩
    obtain ⟨hlt, rfl⟩ := List.getElem?_eq_some_iff.mp hx
    refine ⟨list.take i, list[i], list.drop (i + 1), by simp, hfx, fun y hy => ?_⟩
    obtain ⟨j, hj, rfl⟩ := List.mem_take_iff_getElem.mp hy
    exact hfirst j (by omega) _ (List.getElem?_eq_getElem (by omega))

lemma findSome?_flatMap {α β γ : Type} (f : β → Option γ) (g : α → List β) (list : List α) :
    (list.flatMap g).findSome? f = list.findSome? fun x => (g x).findSome? f := by
  induction list with
  | nil => rfl
  | cons x rest ih =>
    rw [List.flatMap_cons, List.findSome?_append, List.findSome?_cons, ih]
    cases (g x).findSome? f <;> rfl

/-! ## Fields -/

section Fields

variable {f : Field} {owner : TypeId} {v : Violation}

/-- Whether a field is final decides which of the rules for flags it can break. -/
lemma Field.breaks_of_flagViolation? (h : f.flagViolation? = some v) : f.Breaks owner v := by
  -- The cases follow the order of the tests: a rule is reached only if those before it are kept.
  unfold flagViolation? at h
  cases hfinal : f.isFinal with
  | true =>
    cases hvolatile : f.isVolatile with
    | true =>
      simp only [hfinal, hvolatile] at h
      cases h
      exact .finalAndVolatile hfinal hvolatile
    | false =>
      simp only [hfinal, hvolatile, Bool.and_false, Bool.false_eq_true, ↓reduceIte, Bool.not_true,
        Bool.and_eq_true, Option.ite_none_right_eq_some, Option.some.injEq] at h
      obtain ⟨⟨hcapture, hstatic⟩, rfl⟩ := h
      exact .captureStatic hcapture hstatic hfinal hvolatile
  | false =>
    cases hconstant : f.isConstant with
    | true =>
      simp only [hfinal, hconstant] at h
      cases h
      exact .constantNotFinal hconstant hfinal
    | false =>
      cases hcapture : f.isCapture with
      | true =>
        simp only [hfinal, hconstant, hcapture] at h
        cases h
        exact .captureNotFinal hcapture hfinal hconstant
      | false => simp [hfinal, hconstant, hcapture] at h

/-- What is reported of a field is the rule that it breaks. -/
lemma Field.violation?_eq_some_iff : f.violation? (some owner) = some v ↔ f.Breaks owner v := by
  constructor
  · intro h
    unfold violation? at h
    cases hflags : f.flagViolation? with
    | some w =>
      rw [hflags] at h
      cases h
      exact breaks_of_flagViolation? hflags
    | none =>
      -- The owner is looked at last, where the flags are in order.
      have hlegal : f.Legal f.owner := by
        rw [← violation?_eq_none_iff, violation?, hflags]
        exact if_pos rfl
      simp only [hflags, Option.ite_none_left_eq_some] at h
      obtain ⟨howner, h⟩ := h
      cases h
      exact .foreignOwner hlegal fun heq => howner (congrArg some heq.symm)
  · intro h
    cases h with
    | finalAndVolatile hfinal hvolatile => simp [violation?, flagViolation?, hfinal, hvolatile]
    | constantNotFinal hconstant hfinal => simp [violation?, flagViolation?, hfinal, hconstant]
    | captureNotFinal hcapture hfinal hconstant =>
      simp [violation?, flagViolation?, hfinal, hconstant, hcapture]
    | captureStatic hcapture hstatic hfinal hvolatile =>
      simp [violation?, flagViolation?, hfinal, hvolatile, hcapture, hstatic]
    | foreignOwner hflags howner =>
      have hnone := flagViolation?_eq_none_iff.mpr
        ⟨hflags.not_final_and_volatile, hflags.final_of_constant, hflags.final_of_capture⟩
      simp [violation?, hnone, Ne.symm howner]

end Fields

/-! ## Anchors -/

section Anchors

variable {t : DeclaredType} {m : Method} {a : Anchor} {f : Fault} {k : Checker}

/-- An anchor that stands for a field of the type is at fault for the method that it stands in. -/
lemma Checker.anchorFault?_eq_some_iff {x : Field} {index : Nat} {info : Provenance}
    (hname : k.typeName = t.name) :
    anchorFault? { k with initializer := initializerOf m } x index info = some f ↔
      (¬(m.name = staticInitializerName ∨ m.name = instanceInitializerName) ∧
        f = .violation t.name ((Violation.outsideInitializer index).text x.name.text) info) ∨
      ((m.name = staticInitializerName ∨ m.name = instanceInitializerName) ∧
        m.isStatic ≠ x.isStatic ∧
        f = .violation t.name (Violation.wrongInitializer.text x.name.text) info) := by
  rw [← Method.isInitializer_iff, anchorFault?, initializerOf]
  cases hm : m.isInitializer with
  | false => simp [Field.anchorViolation?, fault, hname, eq_comm]
  | true =>
    by_cases hstatic : m.isStatic = x.isStatic
    · simp [Field.anchorViolation?, hstatic]
    · simp [Field.anchorViolation?, hstatic, fault, hname, eq_comm]

/-- What is reported of an anchor is the fault that it raises. -/
lemma Checker.siteFault?_eq_some_iff (hname : k.typeName = t.name) :
    siteFault? ⟨m.owner, t.fields, m.locals⟩ { k with initializer := initializerOf m } a =
      some f ↔ a.Raises t m f := by
  -- The cases are those of the look-up: a slot that stands for nothing, or the field it stands for.
  obtain ⟨info, slot⟩ := a
  constructor
  · intro h
    cases slot with
    | localVar i =>
      by_cases hi : i < m.locals.length
      · simp [siteFault?, Scope.resolve?, hi] at h
      · rw [Nat.not_lt] at hi
        simp only [siteFault?, Scope.resolve?, List.getElem?_eq_none hi, Option.map_none,
          Option.some.injEq] at h
        exact h ▸ .danglingLocal rfl hi
    | field id =>
      by_cases howner : id.owner = m.owner
      · cases hx : t.fields[id.index]? with
        | none =>
          simp only [siteFault?, Scope.resolve?, howner, hx, if_true, Option.map_none,
            Option.some.injEq] at h
          exact h ▸ .danglingField rfl (.inr (List.getElem?_eq_none_iff.mp hx))
        | some x =>
          -- A field in reach is checked against the method; only here the name of the type matters.
          simp only [siteFault?, Scope.resolve?, howner, hx, if_true, Option.map_some] at h
          obtain ⟨hinitializer, rfl⟩ | ⟨hinitializer, hstatic, rfl⟩ :=
            (anchorFault?_eq_some_iff hname).mp h
          · exact .outsideInitializer rfl howner hx hinitializer
          · exact .wrongInitializer rfl howner hx hinitializer hstatic
      · simp only [siteFault?, Scope.resolve?, howner, if_false, Option.some.injEq] at h
        exact h ▸ .danglingField rfl (.inl howner)
  · intro h
    cases h with
    | danglingLocal hslot hindex =>
      cases hslot
      simp [siteFault?, Scope.resolve?, hindex]
    | danglingField hslot hid =>
      cases hslot
      rcases hid with howner | hindex
      · simp [siteFault?, Scope.resolve?, howner]
      · simp [siteFault?, Scope.resolve?, hindex]
    | outsideInitializer hslot howner hx hinitializer =>
      cases hslot
      simp only [siteFault?, Scope.resolve?, howner, hx, if_true, Option.map_some]
      exact (anchorFault?_eq_some_iff hname).mpr (.inl ⟨hinitializer, rfl⟩)
    | wrongInitializer hslot howner hx hinitializer hstatic =>
      cases hslot
      simp only [siteFault?, Scope.resolve?, howner, hx, if_true, Option.map_some]
      exact (anchorFault?_eq_some_iff hname).mpr (.inr ⟨hinitializer, hstatic, rfl⟩)

/-- Going through the methods and the anchors of each is going through the placements. -/
lemma Checker.findSome?_methodFault? (t : DeclaredType) (k : Checker) :
    t.methods.findSome? (methodFault? t.fields k) =
      t.placements.findSome? fun p => siteFault? ⟨p.1.owner, t.fields, p.1.locals⟩
        { k with initializer := initializerOf p.1 } p.2 := by
  rw [DeclaredType.placements, findSome?_flatMap]
  simp only [List.findSome?_map, Function.comp_def]
  rfl

end Anchors

/-! ## The number of anchors -/

section Counts

variable {t : DeclaredType} {f : Fault} {k : Checker}

/-- A field is at fault without anchors, and its second anchor is if there is one. -/
lemma Field.countViolation?_eq_some_iff {x : Field} {sites : List Provenance} {v : Violation}
    {info : Provenance} :
    x.countViolation? sites = some (v, info) ↔
      (sites.length = 0 ∧ v = .unanchored ∧ info = x.info) ∨
      (sites[1]? = some info ∧ v = .anchoredTimes sites.length) := by
  match sites with
  | [] => simp [countViolation?, eq_comm]
  | [_] => simp [countViolation?]
  | _ :: second :: _ => simp [countViolation?, eq_comm, and_comm]

/-- The fault of a field for the number of its anchors. -/
lemma Checker.fault_countViolation?_eq_some_iff {x : Field} {i : Nat} (hname : k.typeName = t.name)
    (hsites : k.anchors = t.fieldSites) :
    ((x.countViolation? (k.sites i)).map fun p => k.fault x p.1 p.2) = some f ↔
      (t.anchorCount i = 0 ∧
        f = .violation t.name (Violation.unanchored.text x.name.text) x.info) ∨
      ∃ second, (t.fieldAnchorsAt i)[1]? = some second ∧
        f = .violation t.name ((Violation.anchoredTimes (t.anchorCount i)).text x.name.text)
          second.info := by
  -- The checker logs where the anchors stand, and the count is the length of that log.
  have hlog : k.sites i = (t.fieldAnchorsAt i).map (·.info) := by
    rw [← sites_eq, sites, sites, hsites]
  have hlength : (k.sites i).length = t.anchorCount i := by
    rw [← length_sites, hlog, sites_eq]
  rw [Option.map_eq_some_iff]
  constructor
  · rintro ⟨⟨v, info⟩, hv, rfl⟩
    obtain ⟨hnone, rfl, rfl⟩ | ⟨hsecond, rfl⟩ := Field.countViolation?_eq_some_iff.mp hv
    · exact .inl ⟨hlength ▸ hnone, by rw [fault, hname]⟩
    · rw [hlog, List.getElem?_map, Option.map_eq_some_iff] at hsecond
      obtain ⟨second, hsecond, rfl⟩ := hsecond
      exact .inr ⟨second, hsecond, by rw [fault, hname, hlength]⟩
  · rintro (⟨hnone, rfl⟩ | ⟨second, hsecond, rfl⟩)
    · exact ⟨(.unanchored, x.info),
        Field.countViolation?_eq_some_iff.mpr (.inl ⟨hlength.trans hnone, rfl, rfl⟩),
        by rw [fault, hname]⟩
    · refine ⟨(.anchoredTimes (k.sites i).length, second.info),
        Field.countViolation?_eq_some_iff.mpr (.inr ⟨?_, rfl⟩), by rw [fault, hname, hlength]⟩
      rw [hlog, List.getElem?_map, hsecond, Option.map_some]

/-- The checker reports the first field that has not exactly one anchor. -/
lemma Checker.countFault?_eq_some_iff :
    ({ typeName := t.name, anchors := t.fieldSites } : Checker).countFault? t.fields = some f ↔
      ∃ (i : Nat) (x : Field), t.fields[i]? = some x ∧ (∀ j < i, t.anchorCount j = 1) ∧
        ((t.anchorCount i = 0 ∧
            f = .violation t.name (Violation.unanchored.text x.name.text) x.info) ∨
          ∃ second, (t.fieldAnchorsAt i)[1]? = some second ∧
            f = .violation t.name ((Violation.anchoredTimes (t.anchorCount i)).text x.name.text)
              second.info) := by
  rw [countFault?, findSome?_eq_some_iff_getElem?]
  simp only [List.getElem?_zipIdx, Nat.zero_add]
  constructor
  · rintro ⟨i, pair, hpair, hfault, hfirst⟩
    obtain ⟨x, hx, rfl⟩ := Option.map_eq_some_iff.mp hpair
    refine ⟨i, x, hx, fun j hj => ?_, (fault_countViolation?_eq_some_iff rfl rfl).mp hfault⟩
    have hlt : j < t.fields.length := Nat.lt_trans hj (List.getElem?_eq_some_iff.mp hx).1
    have hnone := hfirst j hj (t.fields[j], j)
      (by rw [List.getElem?_eq_getElem hlt, Option.map_some])
    rw [← length_sites, ← Field.countViolation?_eq_none_iff (f := t.fields[j])]
    exact Option.map_eq_none_iff.mp hnone
  · rintro ⟨i, x, hx, hfirst, hcount⟩
    refine ⟨i, (x, i), by rw [hx, Option.map_some],
      (fault_countViolation?_eq_some_iff rfl rfl).mpr hcount, fun j hj y hy => ?_⟩
    obtain ⟨y, -, rfl⟩ := Option.map_eq_some_iff.mp hy
    rw [Option.map_eq_none_iff, Field.countViolation?_eq_none_iff, length_sites]
    exact hfirst j hj

end Counts

/-! ## The report -/

section Report

variable {t : DeclaredType} {f : Fault}

/-- The checker reports the first illegal field. -/
lemma Checker.findSome?_fieldFault?_eq_some_iff {k : Checker} (hname : k.typeName = t.name) :
    t.fields.findSome? (k.fieldFault? · (some t.id)) = some f ↔
      ∃ (i : Nat) (x : Field) (v : Violation), t.fields[i]? = some x ∧ x.Breaks t.id v ∧
        (∀ j < i, ∀ y, t.fields[j]? = some y → y.Legal t.id) ∧
        f = .violation t.name (v.text x.name.text) x.info := by
  simp only [findSome?_eq_some_iff_getElem?, fieldFault?, fault, hname, Option.map_eq_some_iff,
    Option.map_eq_none_iff, Field.violation?_eq_some_iff, Field.violation?_eq_none_iff]
  constructor
  · rintro ⟨i, x, hx, ⟨v, hbreaks, rfl⟩, hfirst⟩
    exact ⟨i, x, v, hx, hbreaks, hfirst, rfl⟩
  · rintro ⟨i, x, v, hx, hbreaks, hfirst, rfl⟩
    exact ⟨i, x, hx, ⟨v, hbreaks, rfl⟩, hfirst⟩

/-- The checker reports the first anchor that does not fit. -/
lemma Checker.findSome?_methodFault?_eq_some_iff {k : Checker} (hname : k.typeName = t.name) :
    t.methods.findSome? (methodFault? t.fields k) = some f ↔
      ∃ (i : Nat) (m : Method) (a : Anchor), t.placements[i]? = some (m, a) ∧ a.Raises t m f ∧
        ∀ j < i, ∀ n b, t.placements[j]? = some (n, b) → b.Fits t n := by
  simp only [findSome?_methodFault?, findSome?_eq_some_iff_getElem?, siteFault?_eq_some_iff hname,
    siteFault?_eq_none_iff, Prod.exists, Prod.forall]

/-- No method is reported just when all anchors fit the methods that they stand in. -/
lemma Checker.findSome?_methodFault?_eq_none_iff {k : Checker} :
    t.methods.findSome? (methodFault? t.fields k) = none ↔
      ∀ m a, (m, a) ∈ t.placements → a.Fits t m := by
  simp only [findSome?_methodFault?, List.findSome?_eq_none_iff, siteFault?_eq_none_iff,
    Prod.forall]

/-- A type is rejected with just one fault: of the first illegal field, else of the first anchor
that does not fit, else of the first field that has not exactly one anchor. -/
theorem DeclaredType.verify_eq_error_iff (t : DeclaredType) (f : Fault) :
    t.verify = .error f ↔ t.Reports f := by
  -- The checker as it is behind the walk of the methods.
  let k : Checker := { typeName := t.name, anchors := t.fieldSites }
  have hfields : t.fields.findSome? (k.fieldFault? · (some t.id)) = none ↔
      ∀ x ∈ t.fields, x.Legal t.id := by
    simp only [List.findSome?_eq_none_iff, fieldFault?, Option.map_eq_none_iff,
      Field.violation?_eq_none_iff]
  have hverify : t.verify = .error f ↔ t.firstFault? = some f := by
    rw [verify_eq]
    cases t.firstFault? <;> simp
  -- A first fault is the first of three, so each group is reached only if those before it are
  -- clean.
  rw [hverify, firstFault?, Option.or_eq_some_iff, Option.or_eq_some_iff,
    findSome?_fieldFault?_eq_some_iff rfl, findSome?_methodFault?_eq_some_iff rfl,
    countFault?_eq_some_iff, hfields, findSome?_methodFault?_eq_none_iff]
  constructor
  · rintro (⟨i, x, v, hx, hbreaks, hfirst, rfl⟩ | ⟨hlegal, ⟨i, m, a, ha, hraises, hfirst⟩ |
      ⟨hfits, i, x, hx, hfirst, ⟨hcount, rfl⟩ | ⟨second, hsecond, rfl⟩⟩⟩)
    · exact .field hx hbreaks hfirst
    · exact .anchor hlegal ha hraises hfirst
    · exact .unanchored hlegal hfits hx hcount hfirst
    · exact .anchoredTimes hlegal hfits hx hsecond hfirst
  · intro h
    cases h with
    | field hx hbreaks hfirst => exact .inl ⟨_, _, _, hx, hbreaks, hfirst, rfl⟩
    | anchor hlegal ha hraises hfirst =>
      exact .inr ⟨hlegal, .inl ⟨_, _, _, ha, hraises, hfirst⟩⟩
    | unanchored hlegal hfits hx hcount hfirst =>
      exact .inr ⟨hlegal, .inr ⟨hfits, _, _, hx, hfirst, .inl ⟨hcount, rfl⟩⟩⟩
    | anchoredTimes hlegal hfits hx hsecond hfirst =>
      exact .inr ⟨hlegal, .inr ⟨hfits, _, _, hx, hfirst, .inr ⟨_, hsecond, rfl⟩⟩⟩

end Report

end DeclIR
