import DeclIR.Proofs.Legality.Runs
import DeclIR.Proofs.Traversal.DeclarationFrame

/-!
# Outlines of programs

What is settled when a type, field or method is declared is its signature.  The outline of a program
lists the signatures of its types and of their members by position, and leaves out all else: code,
annotations, flags, parameters and local variables.

Handles resolve by position, so what they resolve to can be read off the outline
(`Program.signature?_eq`).  A change keeps the outline or adds one member to it, and passes and
traversals keep it.
-/

namespace DeclIR

open Visit

/-! ## Handles and signatures -/

/-- The two kinds of members of a type. -/
inductive MemberKind where
  | field
  | method
deriving DecidableEq, Repr

/-- The handle of a declared type, or of one of its fields or methods. -/
inductive Handle where
  | type (id : TypeId)
  | member (kind : MemberKind) (owner : TypeId) (index : Nat)
deriving DecidableEq, Repr

/-- A field's handle. -/
def FieldId.handle (id : FieldId) : Handle := .member .field id.owner id.index

/-- A method's handle. -/
def MethodId.handle (id : MethodId) : Handle := .member .method id.owner id.index

/-- What is settled when a type, field or method is declared. -/
structure Signature where
  name : String
  /-- The type of a field, or the return type of a method. -/
  type : Option Ty := none
  isStatic : Option Bool := none
  /-- The type that it is declared inside of. -/
  enclosing : Option TypeId

/-- The signature of a field. -/
def Field.signature (f : Field) : Signature :=
  ⟨f.name.text, some f.type, some f.isStatic, some f.owner⟩

/-- The signature of a method. -/
def Method.signature (m : Method) : Signature :=
  ⟨m.name, some m.returnType, some m.isStatic, some m.owner⟩

namespace DeclaredType

/-- The signature of a type. -/
def signature (t : DeclaredType) : Signature := ⟨t.name, none, none, t.enclosing⟩

/-- The signatures of the members of a type, by position. -/
def members (t : DeclaredType) : MemberKind → List Signature
  | .field => t.fields.map Field.signature
  | .method => t.methods.map Method.signature

end DeclaredType

/-- The signature of what a handle resolves to. -/
def Program.signature? (p : Program) : Handle → Option Signature
  | .type id => (p.type? id).map (·.signature)
  | .member .field owner index => (p.field? ⟨owner, index⟩).map (·.signature)
  | .member .method owner index => (p.method? ⟨owner, index⟩).map (·.signature)

/-! ## Outlines -/

/-- What is settled of a type and its members. -/
structure Outline where
  id : TypeId
  signature : Signature
  members : MemberKind → List Signature

namespace Outline

/-- The outline with one more member. -/
def add (o : Outline) (kind : MemberKind) (s : Signature) : Outline :=
  { o with members := Function.update o.members kind (o.members kind ++ [s]) }

variable {o : Outline} {kind kind' : MemberKind} {s s' : Signature}

@[simp] lemma members_add_self : (o.add kind s).members kind = o.members kind ++ [s] :=
  Function.update_self ..

@[simp] lemma members_add_of_ne (h : kind' ≠ kind) :
    (o.add kind s).members kind' = o.members kind' := Function.update_of_ne h ..

/-- The members after an addition are those from before and the new one. -/
lemma mem_members_add :
    s' ∈ (o.add kind s).members kind' ↔ s' ∈ o.members kind' ∨ kind' = kind ∧ s' = s := by
  by_cases hkind : kind' = kind
  · subst hkind
    simp
  · simp [hkind]

end Outline

/-- The outline of a type. -/
def DeclaredType.outline (t : DeclaredType) : Outline := ⟨t.id, t.signature, t.members⟩

/-- The outlines of the types of a program, by position. -/
def Program.outlines (p : Program) : List Outline := p.types.map DeclaredType.outline

/-- The signature that a handle stands for in some outlines. -/
def signatureAt? (outlines : List Outline) : Handle → Option Signature
  | .type id => outlines[id]?.map (·.signature)
  | .member kind owner index =>
    outlines[owner]?.bind fun o => if owner = o.id then (o.members kind)[index]? else none

namespace DeclaredType

/-- What a look-up of a field shows is read off the outline. -/
lemma map_signature_field? (t : DeclaredType) (id : FieldId) :
    (t.field? id).map Field.signature =
      if id.owner = t.id then (t.members .field)[id.index]? else none := by
  unfold field? members
  split <;> simp

/-- What a look-up of a method shows is read off the outline. -/
lemma map_signature_method? (t : DeclaredType) (id : MethodId) :
    (t.method? id).map Method.signature =
      if id.owner = t.id then (t.members .method)[id.index]? else none := by
  unfold method? members
  split <;> simp

end DeclaredType

/-- What a handle resolves to can be read off the outline. -/
lemma Program.signature?_eq (p : Program) (h : Handle) :
    p.signature? h = signatureAt? p.outlines h := by
  cases h with
  | type id =>
    simp only [signature?, signatureAt?, outlines, type?, List.getElem?_map, Option.map_map]
    rfl
  | member kind owner index =>
    simp only [signatureAt?, outlines, List.getElem?_map, Option.bind_map]
    cases kind with
    | field =>
      simp only [signature?, field?, type?, Option.map_bind, Function.comp_def,
        DeclaredType.map_signature_field?]
      rfl
    | method =>
      simp only [signature?, method?, type?, Option.map_bind, Function.comp_def,
        DeclaredType.map_signature_method?]
      rfl

/-! ## What keeps an outline -/

/-- Lists that are related position by position look the same if what is related does. -/
lemma Pointwise.map_eq {α β : Type} {R : Nat → α → α → Prop} {l l' : List α} {g : α → β}
    (h : Pointwise R l l') (hR : ∀ i a b, R i a b → g b = g a) : l'.map g = l.map g := by
  refine List.ext_getElem? fun i => ?_
  rw [List.getElem?_map, List.getElem?_map]
  cases ha : l[i]? with
  | some a =>
    obtain ⟨b, hb, hab⟩ := h.getElem? i a ha
    rw [hb, Option.map_some, Option.map_some, hR i a b hab]
  | none =>
    rw [List.getElem?_eq_none_iff] at ha
    rw [List.getElem?_eq_none_iff.mpr (h.length_eq ▸ ha)]

lemma map_set_eq {α β : Type} {g : α → β} {l : List α} {i : Nat} {a b : α} (ha : l[i]? = some a)
    (h : g b = g a) : (l.set i b).map g = l.map g :=
  (Pointwise.set (R := fun _ a b => g b = g a) (fun _ _ => rfl) ha h).map_eq fun _ _ _ => id

lemma map_modify_eq {α β : Type} {g : α → β} {f : α → α} {l : List α} {i : Nat}
    (h : ∀ a, g (f a) = g a) : (l.modify i f).map g = l.map g := by
  refine List.ext_getElem? fun j => ?_
  rw [List.getElem?_map, List.getElem?_map, List.getElem?_modify]
  cases l[j]? with
  | none => rfl
  | some a => by_cases hij : i = j <;> simp [hij, h]

section Kept

variable {reached : List Place}

/-- What is kept of a field includes what is shown of it. -/
lemma Field.Kept.signature_eq {P : Prop} {f g : Field} (h : f.Kept P g) :
    g.signature = f.signature := by
  obtain ⟨v, tags, rfl | ⟨-, g, rfl⟩, rfl⟩ := h
  · rfl
  · rfl

/-- What is kept of a method includes what is shown of it. -/
lemma Method.Kept.signature_eq {type index : Nat} {m n : Method}
    (h : m.Kept reached type index n) : n.signature = m.signature := by
  obtain ⟨tags, body, locals, -, -, rfl⟩ := h
  rfl

/-- An outline does not change as long as the signatures of the members do not. -/
lemma DeclaredType.outline_with {t : DeclaredType} {tags : List Tag} {fields : List Field}
    {methods : List Method} (hfields : fields.map Field.signature = t.fields.map Field.signature)
    (hmethods : methods.map Method.signature = t.methods.map Method.signature) :
    ({ t with tags, fields, methods } : DeclaredType).outline = t.outline := by
  refine congrArg (Outline.mk t.id t.signature) (funext fun kind => ?_)
  cases kind with
  | field => exact hfields
  | method => exact hmethods

/-- What is kept of a type includes its outline. -/
lemma DeclaredType.Kept.outline_eq {index : Nat} {t u : DeclaredType}
    (h : t.Kept reached index u) : u.outline = t.outline := by
  obtain ⟨tags, fields, methods, hfields, hmethods, rfl⟩ := h
  exact outline_with (hfields.map_eq fun _ _ _ => Field.Kept.signature_eq)
    (hmethods.map_eq fun _ _ _ => Method.Kept.signature_eq)

lemma Program.Kept.outlines_eq {p q : Program} (h : p.Kept reached q) : q.outlines = p.outlines :=
  h.map_eq fun _ _ _ => DeclaredType.Kept.outline_eq

end Kept

/-! ### Changes -/

/-- A change that overwrites nothing leaves what is shown of a field. -/
lemma FieldChange.signature_of_run {c : FieldChange} {f g : Field} (hc : c.overwrites = false)
    (h : c.run f = .ok g) : g.signature = f.signature := by
  cases c with
  | setFinal =>
    obtain ⟨-, rfl⟩ := Field.setFinal_eq_ok_iff.mp h
    rfl
  | setVolatile =>
    obtain ⟨-, rfl⟩ := Field.setVolatile_eq_ok_iff.mp h
    rfl
  | declare d =>
    cases h
    rfl
  | overwrite k => cases hc

namespace MethodChange

variable {c : MethodChange} {m n : Method}

lemma signature_onLocal {f : Variable → Variable} {i : Nat} (h : onLocal f i m = some n) :
    n.signature = m.signature := by
  obtain ⟨v, -, rfl⟩ := Option.map_eq_some_iff.mp h
  rfl

/-- No change of a method is seen in its signature. -/
lemma signature_of_run (h : c.run m = some n) : n.signature = m.signature := by
  cases c with
  | addParameter v =>
    cases h
    rfl
  | addLocal v =>
    cases h
    rfl
  | setLocalFinal i => exact signature_onLocal h
  | declareLocal i d => exact signature_onLocal h
  | setBody b =>
    cases h
    rfl
  | extendBody code =>
    obtain ⟨b, -, rfl⟩ := Option.map_eq_some_iff.mp h
    rfl

end MethodChange

namespace DeclaredType

variable {t : DeclaredType}

/-- To exchange a field for one that looks the same leaves the outline. -/
lemma outline_setField {i : Nat} {f g : Field} (hf : t.fields[i]? = some f)
    (h : g.signature = f.signature) : (t.setField i g).outline = t.outline :=
  outline_with (map_set_eq hf h) rfl

/-- To exchange a method for one that looks the same leaves the outline. -/
lemma outline_setMethod {i : Nat} {m n : Method} (hm : t.methods[i]? = some m)
    (h : n.signature = m.signature) : (t.setMethod i n).outline = t.outline :=
  outline_with rfl (map_set_eq hm h)

/-- An anchor that is added to a body is not seen in the signature. -/
lemma signature_anchorIn (m : Method) (info : Provenance) (slot : VarSlot) :
    (anchorIn m info slot).signature = m.signature := by
  unfold anchorIn Method.mapStmts?
  cases m.body <;> rfl

/-- A field that is inserted is one more member; its anchor leaves the methods what they are. -/
lemma outline_insertField (t : DeclaredType) (f : Field) :
    (t.insertField f).outline = t.outline.add .field f.signature := by
  refine congrArg (Outline.mk t.id t.signature) (funext fun kind => ?_)
  cases kind with
  | field =>
    rw [Function.update_self]
    exact List.map_append
  | method =>
    rw [Function.update_of_ne (by decide)]
    exact map_modify_eq fun m => signature_anchorIn m _ _

/-- A method that is added comes behind the others in the outline. -/
lemma outline_addMethod (t : DeclaredType) (info : Provenance) (name : String) (isStatic : Bool)
    (returnType : Ty) :
    (t.addMethod info name isStatic returnType).1.outline =
      t.outline.add .method ⟨name, some returnType, some isStatic, some t.id⟩ := by
  refine congrArg (Outline.mk t.id t.signature) (funext fun kind => ?_)
  cases kind with
  | field =>
    rw [Function.update_of_ne (by decide)]
    rfl
  | method =>
    rw [Function.update_self]
    exact List.map_append

end DeclaredType

namespace Program

variable {p : Program} {id : TypeId} {t u : DeclaredType}

lemma outlines_setType : (p.setType id u).outlines = p.outlines.set id u.outline := List.map_set

/-- A type in the place of one with the same outline keeps the outlines. -/
lemma outlines_setType_of_eq (ht : p.type? id = some t) (h : u.outline = t.outline) :
    (p.setType id u).outlines = p.outlines := map_set_eq ht h

end Program

/-! ### Traversals and passes -/

namespace Visitor.Spares

variable {σ : Type} {v : Visitor σ} (hv : v.Spares)
include hv

/-- A traversal by a visitor that keeps to its nodes leaves all outlines, also if it fails. -/
lemma outlines_walkProgram (p : Program) (own : σ) :
    (endState (p.traverse v own)).node.outlines = p.outlines := by
  have hkept := hv.tallies.walkProgram p {} (own, {}) rfl
  have hnode := congrArg Site.node (v.tallied_erasesTo.walkProgram.after ⟨p, {}, (own, {})⟩)
  exact (congrArg Program.outlines hnode).trans hkept.outlines_eq

/-- So does the visit of a type alone. -/
lemma outline_walkType (t : DeclaredType) (c : Context) (own : σ) :
    (v.walkType.after ⟨t, c, own⟩).node.outline = t.outline := by
  obtain ⟨succeeds, hends⟩ := hv.tallies.walkType.after ⟨t, c, (own, {})⟩
  have hnode := congrArg Site.node (v.tallied_erasesTo.walkType.after ⟨t, c, (own, {})⟩)
  exact (congrArg DeclaredType.outline hnode).trans hends.node.outline_eq

/-- So does the visit of a field alone. -/
lemma signature_walkField (f : Field) (c : Context) (own : σ) :
    (v.walkField.after ⟨f, c, own⟩).node.signature = f.signature := by
  obtain ⟨-, tags, htags⟩ := hv.tallies.walkField ⟨f, c, (own, {})⟩
  have hnode := congrArg Site.node (v.tallied_erasesTo.walkField.after ⟨f, c, (own, {})⟩)
  have hsame : (v.walkField.after ⟨f, c, own⟩).node = { f with tags } := hnode.trans htags
  rw [hsame]
  rfl

end Visitor.Spares

/-- The types before and after have the same outline. -/
def SameOutline (t u : DeclaredType) : Prop := u.outline = t.outline

instance : IsPreorder DeclaredType SameOutline where
  refl _ := rfl
  trans _ _ _ h h' := h'.trans h

/-- Inlining keeps the outline of a type, whether it fails or not. -/
lemma inlineConstants_sameOutline (t : DeclaredType) :
    SameOutline t (inlineConstants.result t) := by
  rw [inlineConstants_result_eq_after, inliner_eq_visitor]
  split
  · exact (Rewriter.inliner t.constant?).visitor_spares.outline_walkType t {} ()
  · rfl

/-- The standard optimization leaves all outlines. -/
lemma outlines_optimize (settings : Settings) (schedule : Pipeline.Schedule) (p : Program) :
    (endState (optimize settings schedule p)).outlines = p.outlines := by
  refine Pointwise.map_eq ?_ fun _ _ _ => id
  refine Pipeline.run_leads (R := SameOutline) ?_ id schedule p
  intro q hq t
  rw [List.mem_singleton.mp hq]
  exact inlineConstants_sameOutline t

end DeclIR
