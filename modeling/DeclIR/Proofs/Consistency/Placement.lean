import DeclIR.Proofs.Consistency.Criterion

/-!
# Where the anchors of fields stand

A type that passes the check has one anchor for each field, and it stands in a method with the name
of an initializer and the staticness of the field (`DeclaredType.verify_places_anchors`).

The check goes by the names of methods, and names may be given more than once.  So the method need
not be the one that fields of this staticness are added to
(`DeclaredType.verify_admits_anchoredAside`).
-/

namespace DeclIR

/-- The anchors of a list that stand for the field at an index. -/
def anchorsOf (index : Nat) (anchors : List Anchor) : Nat :=
  anchors.countP (·.fieldIndex? = some index)

lemma anchorsOf_append (index : Nat) (a b : List Anchor) :
    anchorsOf index (a ++ b) = anchorsOf index a + anchorsOf index b :=
  List.countP_append

/-- Methods that have no anchor of a field together have none each. -/
lemma anchorsOf_eq_zero_of_mem {index : Nat} {methods : List Method} {m : Method}
    (h : anchorsOf index (methods.flatMap Method.anchors) = 0) (hm : m ∈ methods) :
    anchorsOf index m.anchors = 0 := by
  apply List.countP_eq_zero.mpr
  intro a ha
  exact List.countP_eq_zero.mp h a (List.mem_flatMap.mpr ⟨m, hm, ha⟩)

namespace Anchor.Fits

variable {a : Anchor} {t : DeclaredType} {m : Method} {index : Nat}

/-- An anchor of a field fits only into methods that initialize fields. -/
lemma isInitializer (h : a.Fits t m) (ha : a.fieldIndex? = some index) :
    m.isInitializer = true := by
  obtain ⟨info, slot⟩ := a
  cases slot with
  | localVar i => cases ha
  | field id =>
    obtain ⟨-, hname, -⟩ := h
    exact Method.isInitializer_iff.mpr hname

/-- An anchor of a field fits only into methods of the field's staticness. -/
lemma isStatic_eq {f : Field} (h : a.Fits t m) (ha : a.fieldIndex? = some index)
    (hf : t.fields[index]? = some f) : m.isStatic = f.isStatic := by
  obtain ⟨info, slot⟩ := a
  cases slot with
  | localVar i => cases ha
  | field id =>
    obtain ⟨-, -, g, hg, hstatic⟩ := h
    rw [Option.some.inj ha, hf] at hg
    rw [hstatic, ← Option.some.inj hg]

end Anchor.Fits

namespace DeclaredType

variable {t : DeclaredType} {index : Nat}

/-- One method has the one anchor of a field, and the others have none. -/
lemma exists_method_of_anchorCount (h : t.anchorCount index = 1) :
    ∃ (before after : List Method) (m : Method), t.methods = before ++ m :: after ∧
      anchorsOf index (before.flatMap Method.anchors) = 0 ∧
      anchorsOf index m.anchors = 1 ∧ anchorsOf index (after.flatMap Method.anchors) = 0 := by
  obtain ⟨a, ha, hindex⟩ := List.countP_pos_iff.mp (show 0 < t.anchorCount index by omega)
  obtain ⟨m, hm, ham⟩ := List.mem_flatMap.mp ha
  obtain ⟨before, after, hsplit⟩ := List.append_of_mem hm
  have hsum : t.anchorCount index = anchorsOf index (before.flatMap Method.anchors) +
      (anchorsOf index m.anchors + anchorsOf index (after.flatMap Method.anchors)) := by
    unfold anchorCount anchors
    rw [hsplit, List.flatMap_append, List.flatMap_cons, List.countP_append, List.countP_append]
    rfl
  have hpos : 0 < anchorsOf index m.anchors := List.countP_pos_iff.mpr ⟨a, ham, hindex⟩
  exact ⟨before, after, m, hsplit, by omega, by omega, by omega⟩

/-- The position of the method that has the one anchor of a field. -/
lemma exists_position_of_anchorCount (h : t.anchorCount index = 1) :
    ∃ (j : Nat) (m : Method), t.methods[j]? = some m ∧ anchorsOf index m.anchors = 1 ∧
      ∀ (k : Nat) (n : Method), t.methods[k]? = some n → k ≠ j → anchorsOf index n.anchors = 0 := by
  obtain ⟨before, after, m, hmethods, hbefore, hm, hafter⟩ := exists_method_of_anchorCount h
  refine ⟨before.length, m, by simp [hmethods], hm, ?_⟩
  intro k n hn hk
  rw [hmethods] at hn
  rcases Nat.lt_or_gt_of_ne hk with hk | hk
  · rw [List.getElem?_append_left hk] at hn
    exact anchorsOf_eq_zero_of_mem hbefore (List.mem_of_getElem? hn)
  · -- Behind the method, positions count on from the one after it.
    obtain ⟨d, rfl⟩ : ∃ d, k = before.length + (d + 1) := ⟨k - before.length - 1, by omega⟩
    rw [List.getElem?_append_right (by omega), Nat.add_sub_cancel_left,
      List.getElem?_cons_succ] at hn
    exact anchorsOf_eq_zero_of_mem hafter (List.mem_of_getElem? hn)

/-- In a type that passes the check, the one anchor of each field stands in a method that has the
name of an initializer and the field's staticness, and no other method has an anchor of the field.
The method is the one that fields of this staticness are added to, unless another method has such a
name and this staticness too. -/
theorem verify_places_anchors (t : DeclaredType) (h : t.verify = .ok ()) (index : Nat) (f : Field)
    (hf : t.fields[index]? = some f) :
    ∃ (j : Nat) (m : Method), t.methods[j]? = some m ∧ m.isInitializer = true ∧
      m.isStatic = f.isStatic ∧ anchorsOf index m.anchors = 1 ∧
      (∀ (k : Nat) (n : Method), t.methods[k]? = some n → k ≠ j → anchorsOf index n.anchors = 0) ∧
      ((∀ (k : Nat) (n : Method), t.methods[k]? = some n → n.isInitializer = true →
          n.isStatic = f.isStatic → k = initializerIndex f.isStatic) →
        j = initializerIndex f.isStatic) := by
  obtain ⟨-, hfits, hcount⟩ := t.firstFault?_eq_none_iff.mp (verify_eq_ok.mp h)
  have hlt : index < t.fields.length := (List.getElem?_eq_some_iff.mp hf).1
  obtain ⟨j, m, hm, hone, hothers⟩ := exists_position_of_anchorCount (hcount index hlt)
  -- The one anchor says of its method what the check asks of it.
  obtain ⟨a, ha, hindex⟩ := List.countP_pos_iff.mp (show 0 < anchorsOf index m.anchors by omega)
  have hfit := hfits m (List.mem_of_getElem? hm) a ha
  have hinitializer := hfit.isInitializer (of_decide_eq_true hindex)
  have hstatic := hfit.isStatic_eq (of_decide_eq_true hindex) hf
  refine ⟨j, m, hm, hinitializer, hstatic, hone, hothers, ?_⟩
  intro hunique
  exact hunique j m hm hinitializer hstatic

/-- A class with a static field that is anchored in a third method, which has the name of a static
initializer, and with an instance field that is anchored where it is added. -/
def anchoredAside : DeclaredType :=
  let t := DeclaredType.new .synthetic 0 "C" .classType none
  let x := Field.new .synthetic (.ofChar 'x') 0 (.primitive .int) true .plain
  let y := Field.new .synthetic (.ofChar 'y') 0 (.primitive .int) false .plain
  let third := anchorIn (emptyInitializer .synthetic 0 true) .synthetic (.field ⟨0, 0⟩)
  ({ t with fields := [x], methods := t.methods ++ [third] } : DeclaredType).insertField y

/-- The instance field of that class is anchored in the second method, since the class has one
instance initializer only. -/
theorem places_anchoredAside :
    anchoredAside.verify = .ok () ∧ ∃ f, anchoredAside.fields[1]? = some f ∧ f.isStatic = false ∧
      ∃ m, anchoredAside.methods[1]? = some m ∧ m.isInitializer = true ∧ m.isStatic = false ∧
        anchorsOf 1 m.anchors = 1 := by
  have hverify : anchoredAside.verify = .ok () := by decide +kernel
  obtain ⟨j, m, hm, hinitializer, hstatic, hone, -, hunique⟩ :=
    verify_places_anchors anchoredAside hverify 1 _ rfl
  have hj : j = 1 := by
    apply hunique
    intro k n hn hname hn'
    -- The other two methods are static.
    match k with
    | 0 => cases hn; cases hn'
    | 1 => rfl
    | 2 => cases hn; cases hn'
    | k + 3 => cases hn
  rw [hj] at hm
  exact ⟨hverify, _, rfl, rfl, m, hm, hinitializer, hstatic, hone⟩

/-- The check does not make sure that fields are anchored where they are added. -/
theorem verify_admits_anchoredAside :
    ¬∀ t : DeclaredType, t.verify = .ok () → ∀ index f, t.fields[index]? = some f →
      ∃ m, t.methods[initializerIndex f.isStatic]? = some m ∧ anchorsOf index m.anchors = 1 := by
  intro h
  obtain ⟨m, hm, hone⟩ := h anchoredAside (by decide +kernel) 0 _ rfl
  cases hm
  cases hone

end DeclaredType
end DeclIR
