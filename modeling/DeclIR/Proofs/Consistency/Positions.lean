import DeclIR.Proofs.Consistency.Criterion
import DeclIR.Proofs.Construction.Changes
import Mathlib.Tactic.Lemma

/-!
# Where types sit

A handle leads to a position first, and the type there then looks at the identity that it has for
itself.  The two agree as long as types are only added; they need not when types change places or
are overwritten.

* `Program.standsFor_iff`: the handle of a field reads and writes this very field just when its type
  sits at the position that its identity gives.
* `Program.verify_of_subset`: no check looks at positions, so the types of a verified program can be
  put anywhere.
* `Program.verify_ties_fields`: what a verified program says of handles, put together.
-/

namespace DeclIR

namespace Program

variable {p q : Program} {id : FieldId} {n i : Nat} {t : DeclaredType} {f : Field}

/-! ## What a handle stands for -/

/-- A handle stands for the field `f` at position `i` of the type `t` at position `n`: it is what is
read through the handle, and what is written through the handle goes to its place. -/
structure StandsFor (p : Program) (id : FieldId) (n : Nat) (t : DeclaredType) (i : Nat)
    (f : Field) : Prop where
  read : p.field? id = some f
  written : ∀ g, p.setField? id g = some (p.setType n (t.setField i g))

/-- A field is found through a handle in the type at the handle's position, which must have the
handle's identity. -/
lemma field?_eq_some_iff_getElem? :
    p.field? id = some f ↔ ∃ t, p.types[id.owner]? = some t ∧ t.id = id.owner ∧
      t.fields[id.index]? = some f := by
  simp only [field?, type?, Option.bind_eq_some_iff, DeclaredType.field?_eq_some_iff,
    @eq_comm _ id.owner]

/-- Where a type sits at the position that its identity gives, the handles of its fields lead to
them. -/
lemma standsFor_of_position (ht : p.types[t.id]? = some t) (hf : t.fields[i]? = some f) :
    p.StandsFor ⟨t.id, i⟩ t.id t i f where
  read := field?_eq_some_iff_getElem?.mpr ⟨t, ht, rfl, hf⟩
  written := by
    intro g
    have hfield : (t.field? ⟨t.id, i⟩).isSome :=
      Option.isSome_of_eq_some (DeclaredType.field?_eq_some_iff.mpr ⟨rfl, hf⟩)
    exact setField?_eq_some_iff.mpr ⟨t, ht, hfield, rfl⟩

/-- What is written through a handle is written at the handle's position. -/
lemma StandsFor.position (h : p.StandsFor ⟨t.id, i⟩ n t i f) (ht : p.types[n]? = some t)
    (hf : t.fields[i]? = some f) : n = t.id := by
  by_contra hne
  -- A write that makes a difference shows at position `n` or not at all.
  let g : Field := { f with isStatic := !f.isStatic }
  obtain ⟨t', -, -, hwritten⟩ := setField?_eq_some_iff.mp (h.written g)
  have hkept : (p.setType t.id (t'.setField i g)).types[n]? = some t := by
    show (p.types.set t.id _)[n]? = some t
    rw [List.getElem?_set_ne (Ne.symm hne), ht]
  have hchanged : (p.setType n (t.setField i g)).types[n]? = some (t.setField i g) := by
    have hn : n < p.types.length := (List.getElem?_eq_some_iff.mp ht).1
    show (p.types.set n _)[n]? = _
    rw [List.getElem?_set_self hn]
  rw [hwritten, hkept] at hchanged
  have hfields : t.fields[i]? = some g := by
    have hi : i < t.fields.length := (List.getElem?_eq_some_iff.mp hf).1
    rw [Option.some.inj hchanged]
    show (t.fields.set i g)[i]? = some g
    rw [List.getElem?_set_self hi]
  have hstatic : f.isStatic = !f.isStatic := by
    rw [hf] at hfields
    exact congrArg Field.isStatic (Option.some.inj hfields)
  exact (Bool.eq_not_self f.isStatic).mp hstatic

/-- The handle of a field stands for it just when the type sits where its identity says. -/
lemma standsFor_iff (ht : p.types[n]? = some t) (hf : t.fields[i]? = some f) :
    p.StandsFor ⟨t.id, i⟩ n t i f ↔ n = t.id := by
  constructor
  · intro h
    exact h.position ht hf
  · intro hn
    subst hn
    exact standsFor_of_position ht hf

/-! ## What is checked -/

/-- Where a type sits is not checked, nor how often. -/
lemma verify_of_subset (hp : p.verify = .ok ()) (hq : q.types ⊆ p.types) : q.verify = .ok () := by
  rw [verify_eq_ok] at hp ⊢
  intro t ht
  exact hp t (hq ht)

/-- The fields of a verified program belong to the types that they are in. -/
lemma owner_of_verify (hp : p.verify = .ok ()) (ht : t ∈ p.types) (hf : f ∈ t.fields) :
    f.owner = t.id := by
  have hfault := verify_eq_ok.mp hp t ht
  obtain ⟨hlegal, -, -⟩ := t.firstFault?_eq_none_iff.mp hfault
  exact (hlegal f hf).owner_eq

/-- In a verified program each field knows its type, and its type finds it by its handle.  The
program finds it by the same handle just when the type sits at the position that its identity gives;
what the program finds at all belongs to the type that the handle names, which sits there.  Where
types sit is not checked: any program made of types of a verified one is verified, too. -/
theorem verify_ties_fields (p : Program) (h : p.verify = .ok ()) :
    (∀ n t, p.types[n]? = some t → ∀ i f, t.fields[i]? = some f →
      f.owner = t.id ∧ t.field? ⟨t.id, i⟩ = some f ∧
        (p.StandsFor ⟨t.id, i⟩ n t i f ↔ n = t.id)) ∧
    (∀ id f, p.field? id = some f → f.owner = id.owner ∧
      ∃ t, p.types[id.owner]? = some t ∧ t.id = id.owner ∧ t.fields[id.index]? = some f) ∧
    ∀ q : Program, q.types ⊆ p.types → q.verify = .ok () := by
  refine ⟨?_, ?_, ?_⟩
  · intro n t ht i f hf
    have howner := owner_of_verify h (List.mem_of_getElem? ht) (List.mem_of_getElem? hf)
    exact ⟨howner, DeclaredType.field?_eq_some_iff.mpr ⟨rfl, hf⟩, standsFor_iff ht hf⟩
  · intro id f hf
    obtain ⟨t, ht, hid, hfield⟩ := field?_eq_some_iff_getElem?.mp hf
    have howner := owner_of_verify h (List.mem_of_getElem? ht) (List.mem_of_getElem? hfield)
    exact ⟨howner.trans hid, t, ht, hid, hfield⟩
  · intro q hq
    exact verify_of_subset h hq

/-- Two classes that have changed places; the first one declared has a field. -/
def exchanged : Program :=
  let first := (DeclaredType.new .synthetic 0 "A" .classType none).insertField
    (.new .synthetic (.ofChar 'x') 0 (.primitive .int) true .plain)
  let second := DeclaredType.new .synthetic 1 "B" .classType none
  { types := [second, first] }

/-- The field of the class that has moved knows its class, but its handle does not lead to it. -/
theorem verify_ties_exchanged :
    exchanged.verify = .ok () ∧ ∃ t f, exchanged.types[1]? = some t ∧ t.fields[0]? = some f ∧
      f.owner = t.id ∧ ¬exchanged.StandsFor ⟨t.id, 0⟩ 1 t 0 f := by
  have hverify : exchanged.verify = .ok () := by decide +kernel
  obtain ⟨hfields, -, -⟩ := verify_ties_fields exchanged hverify
  obtain ⟨howner, -, hstands⟩ := hfields 1 _ rfl 0 _ rfl
  refine ⟨hverify, _, _, rfl, rfl, howner, ?_⟩
  intro h
  cases hstands.mp h

/-- A program can be verified although its types do not sit at the positions that their identities
give, and although a field is not found by its handle. -/
theorem verify_admits_exchanged :
    (¬∀ p : Program, p.verify = .ok () →
      ∀ (n : Nat) (t : DeclaredType), p.types[n]? = some t → t.id = n) ∧
    ¬∀ p : Program, p.verify = .ok () → ∀ t ∈ p.types, ∀ i f, t.fields[i]? = some f →
      p.field? ⟨t.id, i⟩ = some f := by
  have hverify : exchanged.verify = .ok () := by decide +kernel
  constructor
  · intro h
    cases h exchanged hverify 0 _ rfl
  · intro h
    have hfield := h exchanged hverify _ (List.mem_of_getElem? (i := 1) rfl) 0 _ rfl
    cases hfield

end Program
end DeclIR
