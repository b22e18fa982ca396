import DeclIR.Proofs.Consistency.FirstFault
import DeclIR.Proofs.Construction.Flags

/-!
# Violations that agreeing flags rule out

Three of the violations say that the flags of a field do not agree with one another.  The checker
reports them of such fields only, and no other violation reads like one of the three
(`Violation.isDisagreement_iff`).  So where the flags of all fields agree, none of the three texts
is ever reported (`Program.verify_ne_disagreement`).
-/

namespace DeclIR

namespace Violation

/-- The flags of the field do not agree. -/
def isDisagreement : Violation → Bool
  | finalAndVolatile | constantNotFinal | captureNotFinal => true
  | _ => false

/-! ## Descriptions -/

/-- The end of a text is the end of its last part. -/
lemma getLast?_append {s t : String} (ht : t.toList ≠ []) :
    (s ++ t).toList.getLast? = t.toList.getLast? := by
  rw [String.toList_append, List.getLast?_append_of_ne_nil _ ht]

/-- A number ends with a digit. -/
lemma isDigit_of_getLast? {n : Nat} {c : Char} (h : (toString n).toList.getLast? = some c) :
    c.isDigit = true := by
  have hdigits : (toString n).toList = Nat.toDigits 10 n := by simp
  rw [hdigits] at h
  exact Nat.isDigit_of_mem_toDigits (by decide) (by decide) (List.mem_of_getLast? h)

/-- Among the descriptions, those that end in `e` or `l` are of flags that do not agree. -/
lemma isDisagreement_iff (v : Violation) (name : String) :
    v.isDisagreement = true ↔
      (v.text name).toList.getLast? = some 'e' ∨ (v.text name).toList.getLast? = some 'l' := by
  unfold text
  cases v with
  | foreignOwner owner =>
    simp only
    rw [getLast?_append (by simp [Nat.toDigits_ne_nil])]
    constructor
    · nofun
    · rintro (h | h)
      · exact absurd (isDigit_of_getLast? h) (by decide)
      · exact absurd (isDigit_of_getLast? h) (by decide)
  | _ =>
    simp only
    rw [getLast?_append (by simp)]
    simp [isDisagreement]

/-- A disagreement of flags does not read like any other violation, whatever the names are. -/
lemma text_ne {v w : Violation} (hv : v.isDisagreement = true) (hw : w.isDisagreement = false)
    (name name' : String) : v.text name ≠ w.text name' := by
  intro h
  have hlast := (isDisagreement_iff v name).mp hv
  rw [h, ← isDisagreement_iff, hw] at hlast
  cases hlast

end Violation

/-! ## Faults -/

/-- The fault is not that the flags of a field do not agree. -/
def Fault.IsOther : Fault → Prop
  | .violation _ detail _ => ∃ v name, v.isDisagreement = false ∧ detail = Violation.text name v
  | _ => True

/-- Flags that agree can only be wrong by a capture that is static. -/
lemma Field.flagViolation?_of_agree {f : Field} {v : Violation} (hf : f.flags.Agree)
    (hv : f.flagViolation? = some v) : v = .captureStatic := by
  obtain ⟨hboth, hconstant, hcapture⟩ := hf
  unfold flagViolation? at hv
  rw [if_neg (by simpa [flags] using hboth), if_neg (by simpa [flags] using hconstant),
    if_neg (by simpa [flags] using hcapture)] at hv
  exact (Option.some.inj (Option.ite_none_right_eq_some.mp hv).2).symm

namespace Checker

variable {k : Checker} {fault : Fault}

/-- No field with flags that agree is reported for a disagreement. -/
lemma isOther_of_fieldFault? {f : Field} {owner : Option TypeId} (hf : f.flags.Agree)
    (h : k.fieldFault? f owner = some fault) : fault.IsOther := by
  obtain ⟨v, hv, rfl⟩ := Option.map_eq_some_iff.mp h
  refine ⟨v, _, ?_, rfl⟩
  unfold Field.violation? at hv
  cases hflags : f.flagViolation? with
  | some w =>
    rw [hflags] at hv
    rw [← Option.some.inj hv, Field.flagViolation?_of_agree hf hflags]
    rfl
  | none =>
    rw [hflags] at hv
    obtain ⟨-, hv⟩ := Option.ite_none_left_eq_some.mp hv
    rw [← Option.some.inj hv]
    rfl

/-- No anchor is reported for a disagreement of flags. -/
lemma isOther_of_anchorFault? {f : Field} {index : Nat} {info : Provenance}
    (h : k.anchorFault? f index info = some fault) : fault.IsOther := by
  obtain ⟨v, hv, rfl⟩ := Option.map_eq_some_iff.mp h
  refine ⟨v, _, ?_, rfl⟩
  unfold Field.anchorViolation? at hv
  cases hinitializer : k.initializer with
  | none =>
    rw [hinitializer] at hv
    cases hv
    rfl
  | some isStatic =>
    rw [hinitializer] at hv
    obtain ⟨-, hv⟩ := Option.ite_none_left_eq_some.mp hv
    cases hv
    rfl

lemma isOther_of_siteFault? {scope : Scope} {a : Anchor}
    (h : siteFault? scope k a = some fault) : fault.IsOther := by
  unfold siteFault? at h
  split at h
  · cases h
    trivial
  · exact isOther_of_anchorFault? h
  · cases h

/-- No number of anchors is reported for a disagreement of flags. -/
lemma isOther_of_countFault? {fields : List Field} (h : k.countFault? fields = some fault) :
    fault.IsOther := by
  obtain ⟨⟨f, i⟩, -, h⟩ := List.exists_of_findSome?_eq_some h
  obtain ⟨⟨v, info⟩, hv, rfl⟩ := Option.map_eq_some_iff.mp h
  refine ⟨v, _, ?_, rfl⟩
  unfold Field.countViolation? at hv
  split at hv
  · cases hv
    rfl
  · cases hv
  · cases hv
    rfl

end Checker

open Checker

/-- A type with fields whose flags agree is not reported for a disagreement. -/
lemma DeclaredType.isOther_of_firstFault? {t : DeclaredType} {fault : Fault}
    (ht : ∀ f ∈ t.fields, f.flags.Agree) (h : t.firstFault? = some fault) : fault.IsOther := by
  rcases Option.or_eq_some_iff.mp h with h | ⟨-, h⟩
  · obtain ⟨f, hf, h⟩ := List.exists_of_findSome?_eq_some h
    exact isOther_of_fieldFault? (ht f hf) h
  · rcases Option.or_eq_some_iff.mp h with h | ⟨-, h⟩
    · obtain ⟨m, -, h⟩ := List.exists_of_findSome?_eq_some h
      obtain ⟨a, -, h⟩ := List.exists_of_findSome?_eq_some h
      exact isOther_of_siteFault? h
    · exact isOther_of_countFault? h

/-- No field is reported for flags that do not agree where all of them do. -/
theorem Program.verify_ne_disagreement {p : Program}
    (hp : ∀ t ∈ p.types, ∀ f ∈ t.fields, f.flags.Agree) {v : Violation}
    (hv : v.isDisagreement = true) (typeName name : String) (info : Provenance) :
    p.verify ≠ .error (.violation typeName (v.text name) info) := by
  rw [Program.verify_eq]
  cases hfault : p.types.findSome? DeclaredType.firstFault? with
  | none => simp
  | some fault =>
    rintro ⟨⟩
    obtain ⟨t, ht, hfault⟩ := List.exists_of_findSome?_eq_some hfault
    obtain ⟨w, name', hw, htext⟩ := DeclaredType.isOther_of_firstFault? (hp t ht) hfault
    exact Violation.text_ne hv hw name name' htext

end DeclIR
