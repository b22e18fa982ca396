import DeclIR.Proofs.Construction.Changes
import DeclIR.Proofs.Traversal.FieldFrame

/-!
# Keeping a journal

The hooks of a visitor can change the fields of a program: those for types add fields and change
them, and those for fields and for anchors change the one they are called with.  A visitor that
keeps a journal counts the types and the fields it has left, and notes the places of the fields that
it has overwritten.

A traversal by such a visitor leaves the flags of all fields in agreement if they were, and no field
loses a flag unless the journal says that it was overwritten (`Visitor.Journals.walkProgram`).
-/

namespace DeclIR

open Visit

/-! ## Journals -/

/-- Where a visitor is, and the places of the fields that it has overwritten.  A place names a type
and a field of it by their positions. -/
structure Journal where
  type : Nat := 0
  field : Nat := 0
  overwritten : List FieldId := []

namespace Journal

/-- Notes that fields of the type at hand were overwritten. -/
def note (indexes : List Nat) (j : Journal) : Journal :=
  { j with overwritten := j.overwritten ++ indexes.map fun i => ⟨j.type, i⟩ }

/-- Before the first field of a type. -/
def atFields (j : Journal) : Journal := { j with field := 0 }

/-- Behind a field. -/
def nextField (j : Journal) : Journal := { j with field := j.field + 1 }

/-- Behind a type. -/
def nextType (j : Journal) : Journal := { j with type := j.type + 1 }

/-- More has been noted, of the same type. -/
structure Grows (j k : Journal) : Prop where
  type_eq : k.type = j.type
  subset : j.overwritten ⊆ k.overwritten

/-- The journal lets the field at an index of the type at hand become another one. -/
structure Lets (j : Journal) (index : Nat) (f g : Field) : Prop where
  agree : f.flags.Agree → g.flags.Agree
  grows : ⟨j.type, index⟩ ∉ j.overwritten → f.flags.Grows g.flags

variable {j k : Journal} {index : Nat} {f g h : Field}

lemma Grows.refl (j : Journal) : j.Grows j := ⟨rfl, fun _ => id⟩

lemma Grows.trans {l : Journal} (hjk : j.Grows k) (hkl : k.Grows l) : j.Grows l :=
  ⟨hkl.type_eq.trans hjk.type_eq, fun _ h => hkl.subset (hjk.subset h)⟩

/-- To note overwritten fields makes the journal longer. -/
lemma grows_note (indexes : List Nat) (j : Journal) : j.Grows (j.note indexes) :=
  ⟨rfl, List.subset_append_left _ _⟩

lemma Lets.refl (j : Journal) (index : Nat) (f : Field) : j.Lets index f f :=
  ⟨id, fun _ => .refl _⟩

/-- A field whose flags are the same is no violation of any journal. -/
lemma Lets.of_flags_eq (h : g.flags = f.flags) : j.Lets index f g :=
  ⟨fun hf => h ▸ hf, fun _ => h ▸ .refl f.flags⟩

lemma Lets.trans (hfg : j.Lets index f g) (hgh : j.Lets index g h) : j.Lets index f h :=
  ⟨hgh.agree ∘ hfg.agree, fun hplace => (hfg.grows hplace).trans (hgh.grows hplace)⟩

/-- What a journal allows is allowed by each one that has grown from it. -/
lemma Lets.mono (hfg : j.Lets index f g) (hjk : j.Grows k) : k.Lets index f g where
  agree := hfg.agree
  grows hplace := hfg.grows fun h => hplace (hjk.type_eq ▸ hjk.subset h)

end Journal

/-! ## Changes of fields -/

namespace FieldChange

/-- The field after some changes. -/
def applyAll (changes : List FieldChange) (f : Field) : Field :=
  changes.foldl (fun f c => c.apply f) f

/-- The index of a field, if one of its changes overwrites it. -/
def overwritten (index : Nat) (changes : List FieldChange) : List Nat :=
  if changes.any (·.overwrites) then [index] else []

variable {j : Journal} {index : Nat}

/-- A change of a field is allowed by a journal that has it noted if it overwrites. -/
lemma lets_of_run {c : FieldChange} {f g : Field}
    (h : c.overwrites = true → ⟨j.type, index⟩ ∈ j.overwritten) (hrun : c.run f = .ok g) :
    j.Lets index f g where
  agree hf := agree_of_run hf hrun
  grows hplace :=
    (keeps_of_run (Bool.eq_false_iff.mpr fun hc => hplace (h hc)) hrun).grows

/-- So is a change that may be refused. -/
lemma lets_apply {c : FieldChange} (h : c.overwrites = true → ⟨j.type, index⟩ ∈ j.overwritten)
    (f : Field) : j.Lets index f (c.apply f) := by
  unfold apply
  cases hrun : c.run f with
  | error e => exact .refl j index f
  | ok g => exact lets_of_run h hrun

/-- The journal that notes the changes of a field lets them happen. -/
lemma lets_applyAll (changes : List FieldChange) (f : Field) :
    (j.note (overwritten index changes)).Lets index f (applyAll changes f) := by
  have hnoted (c : FieldChange) (hc : c ∈ changes) (h : c.overwrites = true) :
      ⟨j.type, index⟩ ∈ (j.note (overwritten index changes)).overwritten := by
    have hany : changes.any (·.overwrites) = true := List.any_eq_true.mpr ⟨c, hc, h⟩
    unfold Journal.note overwritten
    rw [if_pos hany]
    simp
  have hall (list : List FieldChange) (hlist : ∀ c ∈ list, c ∈ changes) (f : Field) :
      (j.note (overwritten index changes)).Lets index f (applyAll list f) := by
    induction list generalizing f with
    | nil => exact .refl _ index f
    | cons c rest ih =>
      have hc := lets_apply (hnoted c (hlist c List.mem_cons_self)) f
      exact hc.trans (ih (fun d hd => hlist d (List.mem_cons_of_mem c hd)) (c.apply f))
  exact hall changes (fun _ => id) f

end FieldChange

/-! ## Changes of types -/

/-- The fields of the type at a position, before and after.  There may be further fields after, but
each one from before is still in its place. -/
structure FieldsEvolve (type : Nat) (overwritten : List FieldId) (l l' : List Field) : Prop where
  agree : (∀ f ∈ l, f.flags.Agree) → ∀ f ∈ l', f.flags.Agree
  stays : ∀ index f, l[index]? = some f → ∃ g, l'[index]? = some g ∧
    (⟨type, index⟩ ∉ overwritten → f.flags.Grows g.flags)

namespace FieldsEvolve

variable {type : Nat} {overwritten more : List FieldId} {l l' l'' : List Field}

/-- Fields that stay evolve. -/
lemma refl (type : Nat) (overwritten : List FieldId) (l : List Field) :
    FieldsEvolve type overwritten l l :=
  ⟨id, fun _ f hf => ⟨f, hf, fun _ => .refl _⟩⟩

/-- Fields evolve step by step. -/
lemma trans (h : FieldsEvolve type overwritten l l') (h' : FieldsEvolve type overwritten l' l'') :
    FieldsEvolve type overwritten l l'' where
  agree := h'.agree ∘ h.agree
  stays index f hf := by
    obtain ⟨g, hg, hfg⟩ := h.stays index f hf
    obtain ⟨k, hk, hgk⟩ := h'.stays index g hg
    exact ⟨k, hk, fun hplace => (hfg hplace).trans (hgk hplace)⟩

/-- More places may be overwritten than have been. -/
lemma mono (h : FieldsEvolve type overwritten l l') (hsub : overwritten ⊆ more) :
    FieldsEvolve type more l l' where
  agree := h.agree
  stays index f hf := by
    obtain ⟨g, hg, hfg⟩ := h.stays index f hf
    exact ⟨g, hg, fun hplace => hfg fun hmem => hplace (hsub hmem)⟩

/-- Fields evolve if the journal allows what happens at each position. -/
lemma of_pointwise {j : Journal} (h : Pointwise j.Lets l l') :
    FieldsEvolve j.type j.overwritten l l' where
  agree := h.forall_mem fun _ _ _ hab => hab.agree
  stays index f hf := by
    obtain ⟨g, hg, hfg⟩ := h.getElem? index f hf
    exact ⟨g, hg, hfg.grows⟩

/-- Fields evolve if one is added behind them whose flags agree. -/
lemma append {f : Field} (hf : f.flags.Agree) : FieldsEvolve type overwritten l (l ++ [f]) where
  agree h g hg := by
    rcases List.mem_append.mp hg with hg | hg
    · exact h g hg
    · rwa [List.mem_singleton.mp hg]
  stays index g hg := by
    have hlt := (List.getElem?_eq_some_iff.mp hg).1
    exact ⟨g, (List.getElem?_append_left hlt).trans hg, fun _ => .refl _⟩

end FieldsEvolve

namespace TypeChange

/-- The type after some changes. -/
def applyAll (changes : List TypeChange) (t : DeclaredType) : DeclaredType :=
  changes.foldl (fun t c => c.apply t) t

/-- The index of the field that a change overwrites. -/
def overwritten : TypeChange → List Nat
  | field id c => if c.overwrites then [id.index] else []
  | _ => []

variable {type : Nat} {places : List FieldId}

/-- The fields of a type evolve by each change of it, except at the places that the change
overwrites. -/
lemma fields_evolve {c : TypeChange} {t : DeclaredType}
    (h : ∀ i ∈ c.overwritten, ⟨type, i⟩ ∈ places) :
    FieldsEvolve type places t.fields (c.apply t).fields := by
  unfold apply
  cases hrun : c.run t with
  -- A refused change leaves the type.
  | none => exact .refl ..
  | some t' =>
    show FieldsEvolve type places t.fields t'.fields
    cases c with
    | addField info name ty isStatic d =>
      cases hrun
      -- A field that is added is one with flags that agree, and the fields before it stay.
      exact .append (Field.agree_new ..)
    | pushField f =>
      obtain ⟨r, hr, rfl⟩ := Option.map_eq_some_iff.mp hrun
      obtain ⟨-, hr⟩ := Option.ite_none_right_eq_some.mp hr
      obtain rfl := Option.some.inj hr
      exact .append f.property.agree
    | addMethod info name isStatic returnType =>
      cases hrun
      exact .refl ..
    | setTags tags =>
      cases hrun
      exact .refl ..
    -- A field that is changed is either put there anew, which is noted, or grows.
    | field id c =>
      obtain ⟨f, hf, g, hg, rfl⟩ := run_field_eq_some_iff.mp hrun
      obtain ⟨-, hf⟩ := DeclaredType.field?_eq_some_iff.mp hf
      let j : Journal := { type, overwritten := places }
      have hplace (hc : c.overwrites = true) : ⟨j.type, id.index⟩ ∈ j.overwritten :=
        h id.index (by simp [overwritten, hc])
      exact .of_pointwise (.set (Journal.Lets.refl j) hf (FieldChange.lets_of_run hplace hg))
    | method id c =>
      obtain ⟨m, -, m', -, rfl⟩ := run_method_eq_some_iff.mp hrun
      exact .refl ..

/-- The journal that notes the changes of a type lets them happen. -/
lemma fields_evolve_applyAll {j : Journal} (changes : List TypeChange) (t : DeclaredType) :
    FieldsEvolve j.type (j.note (changes.flatMap overwritten)).overwritten t.fields
      (applyAll changes t).fields := by
  have hnoted (c : TypeChange) (hc : c ∈ changes) : ∀ i ∈ c.overwritten,
      ⟨j.type, i⟩ ∈ (j.note (changes.flatMap overwritten)).overwritten := by
    intro i hi
    exact List.mem_append_right _
      (List.mem_map_of_mem (List.mem_flatMap.mpr ⟨c, hc, hi⟩))
  have hall (list : List TypeChange) (hlist : ∀ c ∈ list, c ∈ changes) (t : DeclaredType) :
      FieldsEvolve j.type (j.note (changes.flatMap overwritten)).overwritten t.fields
        (applyAll list t).fields := by
    induction list generalizing t with
    | nil => exact .refl ..
    | cons c rest ih =>
      have hc := fields_evolve (t := t) (hnoted c (hlist c List.mem_cons_self))
      exact hc.trans (ih (fun d hd => hlist d (List.mem_cons_of_mem c hd)) (c.apply t))
  exact hall changes (fun _ => id) t

end TypeChange

/-! ## Visitors that keep a journal -/

section Hooks

variable {σ α : Type} (journal : σ → Journal) (next : Journal → Journal)

/-- The hook does nothing to the fields of a type but by changes of the type, and notes them. -/
def Visit.ChangesType (w : Visit σ DeclaredType α) : Prop :=
  ∀ s, ∃ changes : List TypeChange,
    (w.after s).node.fields = (TypeChange.applyAll changes s.node).fields ∧
    journal (w.after s).own =
      next ((journal s.own).note (changes.flatMap TypeChange.overwritten))

/-- The hook does nothing to a field but change it, and notes the changes. -/
def Visit.ChangesField (w : Visit σ Field α) : Prop :=
  ∀ s, ∃ changes : List FieldChange, (w.after s).node = FieldChange.applyAll changes s.node ∧
    journal (w.after s).own =
      next ((journal s.own).note (FieldChange.overwritten (journal s.own).field changes))

/-- The hook does nothing to the field of an anchor but change it, and notes the changes. -/
def Visit.ChangesDeclared (slot : VarSlot) (w : Visit σ Declared α) : Prop :=
  ∀ s : Site σ Declared, match slot, s.node with
    | .field id, .field f => ∃ changes : List FieldChange,
      (w.after s).node = .field (FieldChange.applyAll changes f) ∧
      journal (w.after s).own =
        (journal s.own).note (FieldChange.overwritten id.index changes)
    | _, _ => journal (w.after s).own = journal s.own

/-- The hook leaves the journal as it is. -/
def Visit.KeepsJournal {ν : Type} (w : Visit σ ν α) : Prop :=
  ∀ s, journal (w.after s).own = journal s.own

end Hooks

/-- Each hook of the visitor keeps the journal: those that can reach fields note what they change,
and the others leave it as it is. -/
structure Visitor.Journals {σ : Type} (v : Visitor σ) (journal : σ → Journal) : Prop where
  visitType : v.visitType.ChangesType journal Journal.atFields
  endVisitType : v.endVisitType.ChangesType journal Journal.nextType
  visitField : v.visitField.ChangesField journal id
  endVisitField : v.endVisitField.ChangesField journal Journal.nextField
  visitDeclaration : ∀ slot info, (v.visitDeclaration slot info).ChangesDeclared journal slot
  endVisitDeclaration : ∀ slot info, (v.endVisitDeclaration slot info).ChangesDeclared journal slot
  visitMethod : v.visitMethod.KeepsJournal journal
  endVisitMethod : v.endVisitMethod.KeepsJournal journal
  visitParameter : v.visitParameter.KeepsJournal journal
  endVisitParameter : v.endVisitParameter.KeepsJournal journal
  visitTag : ∀ t, (v.visitTag t).KeepsJournal journal
  endVisitTag : ∀ t, (v.endVisitTag t).KeepsJournal journal
  keepTags : ∀ keep tags, v.keepTags = some keep → (keep tags).KeepsJournal journal
  visitBlock : v.visitBlock.KeepsJournal journal
  endVisitBlock : v.endVisitBlock.KeepsJournal journal
  visitStmt : v.visitStmt.KeepsJournal journal
  endVisitStmt : v.endVisitStmt.KeepsJournal journal
  visitExpr : v.visitExpr.KeepsJournal journal
  endVisitExpr : v.endVisitExpr.KeepsJournal journal

/-- While the methods of a type are visited, the journal stays where it is. -/
structure Journal.Stays (j k : Journal) : Prop extends j.Grows k where
  field_eq : k.field = j.field

/-- Journals that stay can be compared step by step. -/
lemma Journal.Stays.trans {j k l : Journal} (hjk : j.Stays k) (hkl : k.Stays l) : j.Stays l :=
  ⟨hjk.toGrows.trans hkl.toGrows, hkl.field_eq.trans hjk.field_eq⟩

/-- What the journal lets the fields become. -/
def journalFrame {σ : Type} (journal : σ → Journal) : FieldFrame σ where
  Own a b := (journal a).Stays (journal b)
  Becomes own := (journal own).Lets
  own_preorder := {
    refl a := ⟨.refl (journal a), rfl⟩
    trans _ _ _ := Journal.Stays.trans }
  refl own := Journal.Lets.refl (journal own)
  trans h h' := h.trans h'
  mono h h' := h'.mono h.toGrows
  declare _ _ _ _ := ⟨id, fun _ => .refl _⟩

namespace Visitor.Journals

variable {σ : Type} {v : Visitor σ} {journal : σ → Journal}

/-- A visit that leaves the journal may be run at any node. -/
lemma leads_of_keepsJournal {ν α : Type} {w : Visit σ ν α} (hw : w.KeepsJournal journal) :
    w.Leads (ByOwn (journalFrame journal).Own) := by
  intro s
  show (journal s.own).Stays (journal (w.after s).own)
  rw [hw s]
  exact ⟨.refl _, rfl⟩

/-- A visit of an anchor changes its field as the journal says, and no other. -/
lemma leads_of_changesDeclared {α : Type} {slot : VarSlot} {w : Visit σ Declared α}
    (hw : w.ChangesDeclared journal slot) : w.Leads ((journalFrame journal).Declares slot) := by
  rintro ⟨d, c, own⟩
  have hs := hw ⟨d, c, own⟩
  have hquiet (h : journal (w.after ⟨d, c, own⟩).own = journal own) :
      (journal own).Stays (journal (w.after ⟨d, c, own⟩).own) := by
    rw [h]
    exact ⟨.refl _, rfl⟩
  -- Local variables are not in the journal; at an anchor of one there is nothing to note.
  cases slot with
  | localVar i => exact ⟨hquiet hs, nofun⟩
  | field id =>
    cases d with
    | localVar x => exact ⟨hquiet hs, nofun⟩
    | field f =>
      obtain ⟨changes, hnode, hjournal⟩ := hs
      refine ⟨?_, ?_⟩
      · show (journal own).Stays (journal (w.after ⟨.field f, c, own⟩).own)
        rw [hjournal]
        exact ⟨Journal.grows_note .., rfl⟩
      · rintro _ _ ⟨⟩ ⟨⟩
        refine ⟨_, hnode, ?_⟩
        show (journal (w.after ⟨.field f, c, own⟩).own).Lets id.index f _
        rw [hjournal]
        exact FieldChange.lets_applyAll changes f

variable (hv : v.Journals journal)
include hv

/-- A visitor that keeps a journal respects it wherever a hook can reach a field. -/
lemma respects : v.Respects (journalFrame journal) where
  visitMethod := leads_of_keepsJournal hv.visitMethod
  endVisitMethod := leads_of_keepsJournal hv.endVisitMethod
  visitParameter := leads_of_keepsJournal hv.visitParameter
  endVisitParameter := leads_of_keepsJournal hv.endVisitParameter
  visitTag t := leads_of_keepsJournal (hv.visitTag t)
  endVisitTag t := leads_of_keepsJournal (hv.endVisitTag t)
  keepTags keep tags h := leads_of_keepsJournal (hv.keepTags keep tags h)
  visitBlock := leads_of_keepsJournal hv.visitBlock
  endVisitBlock := leads_of_keepsJournal hv.endVisitBlock
  visitDeclaration slot info := leads_of_changesDeclared (hv.visitDeclaration slot info)
  endVisitDeclaration slot info := leads_of_changesDeclared (hv.endVisitDeclaration slot info)
  visitStmt := leads_of_keepsJournal hv.visitStmt
  endVisitStmt := leads_of_keepsJournal hv.endVisitStmt
  visitExpr := leads_of_keepsJournal hv.visitExpr
  endVisitExpr := leads_of_keepsJournal hv.endVisitExpr

/-! ### Fields -/

/-- Visiting a field lets it become another one at the place where the journal is. -/
structure FieldEnds (journal : σ → Journal) (succeeds : Bool) (s t : Site σ Field) : Prop where
  grows : (journal s.own).Grows (journal t.own)
  lets : (journal t.own).Lets (journal s.own).field s.node t.node
  next : succeeds = true → (journal t.own).field = (journal s.own).field + 1

/-- The visit of a field leads to the next one, with its changes noted. -/
lemma walkField : v.walkField.Ends (FieldEnds journal) := by
  -- The position of the journal is still that of this field while its parts are visited.
  let S (s t : Site σ Field) : Prop := (journal s.own).Stays (journal t.own) ∧
    (journal t.own).Lets (journal s.own).field s.node t.node
  unfold Visitor.walkField
  refine .inFrame (fun _ _ h => ⟨h.grows, h.lets, h.next⟩) ?_ _ _
  refine .around (S := S) (T := S) ?_ (fun _ _ => id) ?_ ?_ (fun _ _ h => ⟨h.1.toGrows, h.2, nofun⟩)
  · -- The first hook may change the field, and it notes the places.
    intro s
    obtain ⟨changes, hnode, hjournal⟩ := hv.visitField s
    refine ⟨?_, ?_⟩
    · rw [hjournal]
      exact ⟨Journal.grows_note .., rfl⟩
    · rw [hjournal, hnode]
      exact FieldChange.lets_applyAll changes s.node
  · -- Annotations are not flags.
    intro s t ⟨hstays, hlets⟩
    let put (f : Field) (tags : List Tag) : Field := { f with tags }
    have htags : (journal t.own).Stays (journal ((v.inTags Field.tags put).after t).own) :=
      hv.respects.steady.inTags Field.tags put t
    have hput (f : Field) (tags : List Tag) : (put f tags).flags = f.flags := rfl
    have hflags : ((v.inTags Field.tags put).after t).node.flags = t.node.flags :=
      after_inTags Field.flags hput t
    exact ⟨hstays.trans htags, (hlets.mono htags.toGrows).trans (.of_flags_eq hflags)⟩
  · -- Only the last hook goes on to the next field.
    intro succeeds s t ⟨hstays, hlets⟩
    obtain ⟨changes, hnode, hjournal⟩ := hv.endVisitField t
    have hgrows := Journal.grows_note
      (FieldChange.overwritten (journal t.own).field changes) (journal t.own)
    refine ⟨?_, ?_, fun _ => ?_⟩
    · rw [hjournal]
      exact hstays.toGrows.trans ⟨hgrows.type_eq, hgrows.subset⟩
    · rw [hjournal, hnode]
      rw [hstays.field_eq] at hgrows ⊢
      have hlets' := (hlets.mono hgrows).trans (FieldChange.lets_applyAll changes t.node)
      exact ⟨hlets'.agree, hlets'.grows⟩
    · rw [hjournal, ← hstays.field_eq]
      rfl

/-! ### Types -/

/-- Between the two hooks for a type, the fields become others at the places of their type. -/
structure Evolves (journal : σ → Journal) (s t : Site σ DeclaredType) : Prop where
  grows : (journal s.own).Grows (journal t.own)
  fields : FieldsEvolve (journal s.own).type (journal t.own).overwritten s.node.fields t.node.fields

omit hv in
lemma Evolves.trans {s t u : Site σ DeclaredType} (hst : Evolves journal s t)
    (htu : Evolves journal t u) : Evolves journal s u where
  grows := hst.grows.trans htu.grows
  fields := (hst.fields.mono htu.grows.subset).trans (hst.grows.type_eq ▸ htu.fields)

/-- The annotations of a type take no part in the evolution of its fields. -/
lemma inTags_evolves (s : Site σ DeclaredType) :
    let t := (v.inTags (·.tags) fun t tags => { t with tags }).after s
    Evolves journal s t ∧ (journal t.own).field = (journal s.own).field := by
  let put (t : DeclaredType) (tags : List Tag) : DeclaredType := { t with tags }
  have hstays : (journal s.own).Stays (journal ((v.inTags DeclaredType.tags put).after s).own) :=
    hv.respects.steady.inTags DeclaredType.tags put s
  have hput (t : DeclaredType) (tags : List Tag) : (put t tags).fields = t.fields := rfl
  have hfields : ((v.inTags DeclaredType.tags put).after s).node.fields = s.node.fields :=
    after_inTags DeclaredType.fields hput s
  refine ⟨⟨hstays.toGrows, ?_⟩, hstays.field_eq⟩
  show FieldsEvolve _ _ _ ((v.inTags DeclaredType.tags put).after s).node.fields
  rw [hfields]
  exact .refl ..

/-- The fields evolve while they are visited, from the first one on. -/
lemma inFields_evolves (s : Site σ DeclaredType) (hzero : (journal s.own).field = 0) :
    Evolves journal s (v.inFields.after s) := by
  let R (a b : σ) : Prop := (journal a).Grows (journal b)
  have hR : IsPreorder σ R :=
    { refl a := .refl (journal a)
      trans _ _ _ := Journal.Grows.trans }
  have hwalk (s : Site σ Field) : R s.own (v.walkField.after s).own ∧
      (journal (v.walkField.after s).own).Lets (journal s.own).field s.node
        (v.walkField.after s).node := by
    obtain ⟨succeeds, h⟩ := hv.walkField.after s
    exact ⟨h.grows, h.lets⟩
  obtain ⟨hgrows, hfields⟩ := after_each (R := R) (P := fun own => (journal own).Lets)
    (fun own => (journal own).field) (fun own => .refl (journal own)) (fun h h' => h'.mono h) hwalk
    (fun s t h => (hv.walkField.of_ok h).next rfl) s.node.fields s.context s.own
  simp only [hzero, Nat.zero_add] at hfields
  unfold inFields part
  rw [after_node_bind, after_zoom]
  exact ⟨hgrows, hgrows.type_eq ▸ .of_pointwise hfields⟩

/-- The fields evolve while the methods are visited, whose anchors stand for them. -/
lemma inMethods_evolves (s : Site σ DeclaredType) : Evolves journal s (v.inMethods.after s) := by
  obtain ⟨hstays, hfields⟩ :=
    hv.respects.each_walkMethod ⟨s.node.methods, s.context, (s.own, s.node.fields)⟩
  unfold inMethods
  rw [after_node_bind, after_zoom]
  exact ⟨hstays.toGrows, hstays.type_eq ▸ .of_pointwise hfields⟩

lemma inType_evolves (s : Site σ DeclaredType) (hzero : (journal s.own).field = 0) :
    Evolves journal s (v.inType.after s) := by
  obtain ⟨htags, hfield⟩ := hv.inTags_evolves s
  unfold inType
  refine after_bind Evolves.trans htags fun _ => ?_
  have hfields := hv.inFields_evolves _ (hfield.trans hzero)
  exact after_bind Evolves.trans hfields fun _ => hv.inMethods_evolves _

/-- Visiting a type lets its fields become others at the places where the journal is. -/
structure TypeEnds (journal : σ → Journal) (succeeds : Bool) (s t : Site σ DeclaredType) :
    Prop where
  subset : (journal s.own).overwritten ⊆ (journal t.own).overwritten
  fields : FieldsEvolve (journal s.own).type (journal t.own).overwritten s.node.fields t.node.fields
  next : succeeds = true → (journal t.own).type = (journal s.own).type + 1

/-- The visit of a type ends with its fields evolved and leads to the next type. -/
lemma walkType : v.walkType.Ends (TypeEnds journal) := by
  unfold Visitor.walkType
  refine .node_bind fun t => .inFrame (fun _ _ h => ⟨h.subset, h.fields, h.next⟩) ?_ _ _
  refine .enclosedBy (fun _ _ h => ⟨h.subset, h.fields, h.next⟩) ?_ _
  refine .around (S := fun s t => Evolves journal s t ∧ (journal t.own).field = 0)
    (T := Evolves journal) ?_ (fun _ _ => And.left) ?_ ?_
    (fun _ _ h => ⟨h.grows.subset, h.fields, nofun⟩)
  · -- The first hook may replace the fields, and it starts to count them from zero.
    intro s
    obtain ⟨changes, hfields, hjournal⟩ := hv.visitType s
    refine ⟨⟨?_, ?_⟩, ?_⟩
    · rw [hjournal]
      exact ⟨rfl, (Journal.grows_note ..).subset⟩
    · rw [hjournal, hfields]
      exact TypeChange.fields_evolve_applyAll changes s.node
    · rw [hjournal]
      rfl
  · intro s t ⟨hst, hzero⟩
    exact hst.trans (hv.inType_evolves t hzero)
  · -- What the last hook overwrites stands at the places of this type, which is still the current
    -- one.
    intro succeeds s t hst
    obtain ⟨changes, hfields, hjournal⟩ := hv.endVisitType t
    have hgrows := Journal.grows_note (changes.flatMap TypeChange.overwritten) (journal t.own)
    have hend := TypeChange.fields_evolve_applyAll (j := journal t.own) changes t.node
    rw [hst.grows.type_eq] at hend
    refine ⟨?_, ?_, fun _ => ?_⟩
    · rw [hjournal]
      exact fun _ h => hgrows.subset (hst.grows.subset h)
    · rw [hjournal, hfields]
      exact (hst.fields.mono hgrows.subset).trans hend
    · rw [hjournal, ← hst.grows.type_eq]
      rfl

/-! ### Programs -/

/-- Each field stays at its place, and what becomes of it the journal allows. -/
theorem walkProgram (p : Program) (c : Context) (own : σ) :
    let t := v.walkProgram.after ⟨p, c, own⟩
    Pointwise (fun i a b => FieldsEvolve ((journal own).type + i) (journal t.own).overwritten
      a.fields b.fields) p.types t.node.types := by
  let R (a b : σ) : Prop := (journal a).overwritten ⊆ (journal b).overwritten
  have hR : IsPreorder σ R :=
    { refl a := List.Subset.refl _
      trans _ _ _ := List.Subset.trans }
  let P (own : σ) (i : Nat) (a b : DeclaredType) : Prop :=
    FieldsEvolve i (journal own).overwritten a.fields b.fields
  have hwalk (s : Site σ DeclaredType) : R s.own (v.walkType.after s).own ∧
      P (v.walkType.after s).own (journal s.own).type s.node (v.walkType.after s).node := by
    obtain ⟨succeeds, h⟩ := hv.walkType.after s
    exact ⟨h.subset, h.fields⟩
  obtain ⟨-, htypes⟩ := after_each (R := R) (P := P) (fun own => (journal own).type)
    (fun own i t => .refl ..) (fun h h' => h'.mono h) hwalk
    (fun s t h => (hv.walkType.of_ok h).next rfl) p.types c own
  unfold Visitor.walkProgram part
  rw [after_node_bind, after_zoom]
  exact htypes

end Visitor.Journals
end DeclIR
