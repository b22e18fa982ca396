import DeclIR.Declaration.Field
import Mathlib.Tactic.Lemma

/-!
# The flags of a field

The flags of a field agree with one another if it is not both final and volatile, and if it is final
when it is a compile-time constant or holds an enclosing instance.  A new field's flags agree, and
each change of a field keeps it so.  A change only ever adds a flag, unless it puts another field in
the place of the one there.
-/

namespace DeclIR

/-! ## Flags -/

/-- The flags of a field. -/
structure Flags where
  isFinal : Bool
  isVolatile : Bool
  isStatic : Bool
  isConstant : Bool
  isCapture : Bool
deriving DecidableEq, Repr

namespace Flags

/-- The flags do not exclude one another. -/
structure Agree (a : Flags) : Prop where
  not_final_and_volatile : ¬(a.isFinal = true ∧ a.isVolatile = true)
  final_of_constant : a.isConstant = true → a.isFinal = true
  final_of_capture : a.isCapture = true → a.isFinal = true

/-- A field with the flags `a` may have become final or volatile, and nothing else. -/
structure Grows (a b : Flags) : Prop where
  isStatic_eq : b.isStatic = a.isStatic
  isConstant_eq : b.isConstant = a.isConstant
  isCapture_eq : b.isCapture = a.isCapture
  final_of_final : a.isFinal = true → b.isFinal = true
  volatile_of_volatile : a.isVolatile = true → b.isVolatile = true

@[simp] lemma Grows.refl (a : Flags) : a.Grows a := ⟨rfl, rfl, rfl, id, id⟩

lemma Grows.trans {a b c : Flags} (hab : a.Grows b) (hbc : b.Grows c) : a.Grows c where
  isStatic_eq := hbc.isStatic_eq.trans hab.isStatic_eq
  isConstant_eq := hbc.isConstant_eq.trans hab.isConstant_eq
  isCapture_eq := hbc.isCapture_eq.trans hab.isCapture_eq
  final_of_final := hbc.final_of_final ∘ hab.final_of_final
  volatile_of_volatile := hbc.volatile_of_volatile ∘ hab.volatile_of_volatile

end Flags

namespace Field

variable {f g : Field}

/-- The flags of a field. -/
def flags (f : Field) : Flags where
  isFinal := f.isFinal
  isVolatile := f.isVolatile
  isStatic := f.isStatic
  isConstant := f.isConstant
  isCapture := f.isCapture

/-! ## Operations -/

/-- A field can be made final just when it is not volatile, and nothing else changes. -/
lemma setFinal_eq_ok_iff :
    f.setFinal = .ok g ↔ f.isVolatile = false ∧ g = { f with isFinal := true } := by
  unfold setFinal
  cases f.isVolatile with
  | true => simp
  | false => simp [eq_comm]

/-- A field can be made volatile just when it is not final, and nothing else changes. -/
lemma setVolatile_eq_ok_iff :
    f.setVolatile = .ok g ↔ f.isFinal = false ∧ g = { f with isVolatile := true } := by
  unfold setVolatile
  cases f.isFinal with
  | true => simp
  | false => simp [eq_comm]

/-- The flags of a new field agree, whatever it is declared as. -/
lemma agree_new (info : Provenance) (name : Name) (owner : TypeId) (type : Ty) (isStatic : Bool)
    (d : Disposition) : (new info name owner type isStatic d).flags.Agree := by
  cases d with
  | constant => exact ⟨by simp [flags, new], fun _ => rfl, fun _ => rfl⟩
  | final => exact ⟨by simp [flags, new], fun _ => rfl, fun _ => rfl⟩
  | plain => exact ⟨by simp [flags, new], nofun, nofun⟩
  | capture => exact ⟨by simp [flags, new], fun _ => rfl, fun _ => rfl⟩
  | volatile => exact ⟨by simp [flags, new, Disposition.isFinal], nofun, nofun⟩

/-- Nothing but being volatile excludes being final. -/
lemma agree_setFinal (hg : f.setFinal = .ok g) : g.flags.Agree := by
  obtain ⟨hvolatile, rfl⟩ := setFinal_eq_ok_iff.mp hg
  exact ⟨by simp [flags, hvolatile], fun _ => rfl, fun _ => rfl⟩

/-- A field that is not final is neither a constant nor a capture, so it can become volatile. -/
lemma agree_setVolatile (h : f.flags.Agree) (hg : f.setVolatile = .ok g) : g.flags.Agree := by
  obtain ⟨hfinal, rfl⟩ := setVolatile_eq_ok_iff.mp hg
  exact ⟨by simp [flags, hfinal], h.final_of_constant, h.final_of_capture⟩

/-- A field as it can be built, before it becomes part of a type. -/
inductive Built : Field → Prop
  | new (info : Provenance) (name : Name) (owner : TypeId) (type : Ty) (isStatic : Bool)
      (d : Disposition) : Built (.new info name owner type isStatic d)
  | withTags {f : Field} (h : Built f) (tags : List Tag) : Built { f with tags }
  | setFinal {f g : Field} (h : Built f) (hg : f.setFinal = .ok g) : Built g
  | setVolatile {f g : Field} (h : Built f) (hg : f.setVolatile = .ok g) : Built g
  | declare {f : Field} (h : Built f) (d : Declaration) : Built (f.declare d)

/-- The flags of a field agree as long as it is only built by the operations that there are. -/
lemma Built.agree (h : f.Built) : f.flags.Agree := by
  induction h with
  | new => exact agree_new ..
  | withTags _ _ ih => exact ih
  | setFinal _ hg _ => exact agree_setFinal hg
  | setVolatile _ hg ih => exact agree_setVolatile ih hg
  | declare _ _ ih => exact ih

end Field

/-- A field that was built. -/
abbrev BuiltField := { f : Field // f.Built }

/-! ## Changes -/

/-- A change of a field that is part of a type. -/
inductive FieldChange where
  | setFinal
  | setVolatile
  | declare (d : Declaration)
  /-- Puts another field in its place. -/
  | overwrite (f : BuiltField)

namespace FieldChange

variable {c : FieldChange} {f g : Field}

/-- Changes a field, unless its flags exclude it. -/
def run : FieldChange → Field → Except Fault Field
  | setFinal, f => f.setFinal
  | setVolatile, f => f.setVolatile
  | declare d, f => .ok (f.declare d)
  | overwrite g, _ => .ok g.val

/-- The field after a change, or after the change was refused. -/
def apply (c : FieldChange) (f : Field) : Field :=
  match c.run f with
  | .ok g => g
  | .error _ => f

/-- Whether another field takes the place of the one changed. -/
def overwrites : FieldChange → Bool
  | overwrite _ => true
  | _ => false

/-- No change of a field makes its flags disagree. -/
lemma agree_of_run (h : f.flags.Agree) (hg : c.run f = .ok g) : g.flags.Agree := by
  cases c with
  | setFinal => exact Field.agree_setFinal hg
  | setVolatile => exact Field.agree_setVolatile h hg
  | declare d =>
    cases hg
    exact h
  | overwrite k =>
    cases hg
    exact k.property.agree

/-- What a change leaves of a field that stays in its place. -/
structure Keeps (f g : Field) : Prop where
  owner_eq : g.owner = f.owner
  info_eq : g.info = f.info
  grows : f.flags.Grows g.flags

/-- A change that overwrites nothing keeps what a field is built with. -/
lemma keeps_of_run (hc : c.overwrites = false) (hg : c.run f = .ok g) : Keeps f g := by
  cases c with
  | setFinal =>
    obtain ⟨-, rfl⟩ := Field.setFinal_eq_ok_iff.mp hg
    exact ⟨rfl, rfl, rfl, rfl, rfl, fun _ => rfl, id⟩
  | setVolatile =>
    obtain ⟨-, rfl⟩ := Field.setVolatile_eq_ok_iff.mp hg
    exact ⟨rfl, rfl, rfl, rfl, rfl, id, fun _ => rfl⟩
  | declare d =>
    cases hg
    exact ⟨rfl, rfl, .refl _⟩
  | overwrite k => cases hc

end FieldChange
end DeclIR
