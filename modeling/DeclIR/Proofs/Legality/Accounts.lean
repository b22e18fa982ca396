import DeclIR.Proofs.Legality.Journal
import DeclIR.Proofs.Traversal.Wrapping

/-!
# Accounts

The hooks of a visitor may change fields by the operations that there are for it, and by nothing
else.  An account says by which: for each hook that can reach a field, the list of the changes that
it makes wherever it is called.

From an account a journal can be kept alongside any visitor (`Visitor.chronicle`).  It does not take
part in the walk, so what is known of visitors that keep a journal is known of all visitors that
follow an account (`Visitor.Follows.walkProgram`).
-/

namespace DeclIR

open Visit

variable {σ ν α : Type}

/-- The changes that the hooks of a visitor make, by where they are called. -/
structure Account (σ : Type) where
  visitType : Site σ DeclaredType → List TypeChange := fun _ => []
  endVisitType : Site σ DeclaredType → List TypeChange := fun _ => []
  visitField : Site σ Field → List FieldChange := fun _ => []
  endVisitField : Site σ Field → List FieldChange := fun _ => []
  /-- The changes of a field that is visited at an anchor. -/
  visitDeclaration : FieldId → Provenance → Site σ Field → List FieldChange := fun _ _ _ => []
  endVisitDeclaration : FieldId → Provenance → Site σ Field → List FieldChange := fun _ _ _ => []

/-- The hooks do nothing to fields but the changes accounted for, whether they fail or not. -/
structure Visitor.Follows (v : Visitor σ) (a : Account σ) : Prop where
  visitType : ∀ s,
    (v.visitType.after s).node.fields = (TypeChange.applyAll (a.visitType s) s.node).fields
  endVisitType : ∀ s,
    (v.endVisitType.after s).node.fields = (TypeChange.applyAll (a.endVisitType s) s.node).fields
  visitField : ∀ s, (v.visitField.after s).node = FieldChange.applyAll (a.visitField s) s.node
  endVisitField : ∀ s,
    (v.endVisitField.after s).node = FieldChange.applyAll (a.endVisitField s) s.node
  visitDeclaration : ∀ id info f c own,
    ((v.visitDeclaration (.field id) info).after ⟨.field f, c, own⟩).node =
      .field (FieldChange.applyAll (a.visitDeclaration id info ⟨f, c, own⟩) f)
  endVisitDeclaration : ∀ id info f c own,
    ((v.endVisitDeclaration (.field id) info).after ⟨.field f, c, own⟩).node =
      .field (FieldChange.applyAll (a.endVisitDeclaration id info ⟨f, c, own⟩) f)

/-! ## Journals from accounts -/

/-- Keeps a journal beside a visit. -/
def Visit.noting (w : Visit σ ν α) (update : Site σ ν → Journal → Journal) :
    Visit (σ × Journal) ν α :=
  zoom (·.map Prod.fst)
    (fun t s => ⟨t.node, t.context, (t.own, update (s.map Prod.fst) s.own.2)⟩) w

/-- The journal beside a visit takes no part in it. -/
lemma Visit.noting_erasesTo (w : Visit σ ν α) (update : Site σ ν → Journal → Journal) :
    (w.noting update).ErasesTo Prod.fst w := by
  intro s
  unfold noting zoom
  cases w (s.map Prod.fst) <;> rfl

namespace Journal

/-- The journal after a hook for a type. -/
def atType (next : Journal → Journal) (changes : Site σ DeclaredType → List TypeChange)
    (s : Site σ DeclaredType) (j : Journal) : Journal :=
  next (j.note ((changes s).flatMap TypeChange.overwritten))

/-- The journal after a hook for a field. -/
def atField (next : Journal → Journal) (changes : Site σ Field → List FieldChange)
    (s : Site σ Field) (j : Journal) : Journal :=
  next (j.note (FieldChange.overwritten j.field (changes s)))

/-- The journal after a hook for an anchor. -/
def atAnchor (changes : FieldId → Provenance → Site σ Field → List FieldChange) (slot : VarSlot)
    (info : Provenance) (s : Site σ Declared) (j : Journal) : Journal :=
  match slot, s.node with
  | .field id, .field f =>
    j.note (FieldChange.overwritten id.index (changes id info ⟨f, s.context, s.own⟩))
  | _, _ => j

end Journal

open Journal in
/-- The journal after a hook that is called for this node. -/
def Account.update (a : Account σ) : Phase → Node → Context → σ → Journal → Journal
  | .pre, .type t, c, own => atType atFields a.visitType ⟨t, c, own⟩
  | .post, .type t, c, own => atType nextType a.endVisitType ⟨t, c, own⟩
  | .pre, .field f, c, own => atField id a.visitField ⟨f, c, own⟩
  | .post, .field f, c, own => atField nextField a.endVisitField ⟨f, c, own⟩
  | .pre, .declaration slot info d, c, own => atAnchor a.visitDeclaration slot info ⟨d, c, own⟩
  | .post, .declaration slot info d, c, own => atAnchor a.endVisitDeclaration slot info ⟨d, c, own⟩
  | _, _, _, _ => id

/-- The visitor that also keeps a journal. -/
def Visitor.chronicle (v : Visitor σ) (a : Account σ) : Visitor (σ × Journal) :=
  v.wrap (fun _ _ phase x w => w.noting fun s => a.update phase (x s.node) s.context s.own)
    fun _ w => beside w

/-- The journal does not take part in the walk. -/
lemma Visitor.chronicle_erasesTo (v : Visitor σ) (a : Account σ) :
    (v.chronicle a).ErasesTo Prod.fst v :=
  wrap_erasesTo (fun _ _ _ _ w => noting_erasesTo w _) fun _ w => .of_beside w

namespace Visitor.Follows

variable {v : Visitor σ} {a : Account σ}

/-- A visit that does not know of the journal leaves it as it is. -/
lemma keepsJournal_beside (w : Visit σ ν α) :
    (beside w : Visit (σ × Journal) ν α).KeepsJournal Prod.snd := by
  intro s
  unfold beside
  rw [after_zoom]

/-- The journal is left as it is at a node that the account has no changes for. -/
lemma keepsJournal_noting (w : Visit σ ν α) :
    (w.noting fun _ => id).KeepsJournal Prod.snd := by
  intro s
  unfold noting
  rw [after_zoom]
  rfl

/-- A hook for types that follows the account keeps the journal of its changes. -/
lemma changesType_noting {w : Visit σ DeclaredType α} (next : Journal → Journal)
    {changes : Site σ DeclaredType → List TypeChange}
    (hw : ∀ s, (w.after s).node.fields = (TypeChange.applyAll (changes s) s.node).fields) :
    (w.noting (Journal.atType next changes)).ChangesType Prod.snd next := by
  intro s
  unfold noting
  rw [after_zoom]
  exact ⟨changes (s.map Prod.fst), hw _, rfl⟩

/-- A hook for fields that follows the account keeps the journal of its changes. -/
lemma changesField_noting {w : Visit σ Field α} (next : Journal → Journal)
    {changes : Site σ Field → List FieldChange}
    (hw : ∀ s, (w.after s).node = FieldChange.applyAll (changes s) s.node) :
    (w.noting (Journal.atField next changes)).ChangesField Prod.snd next := by
  intro s
  unfold noting
  rw [after_zoom]
  exact ⟨changes (s.map Prod.fst), hw _, rfl⟩

/-- A hook for anchors that follows the account keeps the journal if the anchor stands for a field.
-/
lemma changesDeclared_noting {w : VarSlot → Provenance → Visit σ Declared α}
    {changes : FieldId → Provenance → Site σ Field → List FieldChange}
    (hw : ∀ id info f c own, ((w (.field id) info).after ⟨.field f, c, own⟩).node =
      .field (FieldChange.applyAll (changes id info ⟨f, c, own⟩) f))
    (slot : VarSlot) (info : Provenance) :
    ((w slot info).noting (Journal.atAnchor changes slot info)).ChangesDeclared Prod.snd slot := by
  rintro ⟨d, c, own, j⟩
  unfold noting
  rw [after_zoom]
  cases slot with
  | localVar i => rfl
  | field id =>
    cases d with
    | localVar x => rfl
    | field f => exact ⟨changes id info ⟨f, c, own⟩, hw id info f c own, rfl⟩

/-- A visitor that follows an account keeps a journal of what it overwrites. -/
lemma journals (hv : v.Follows a) : (v.chronicle a).Journals Prod.snd where
  visitType := changesType_noting _ hv.visitType
  endVisitType := changesType_noting _ hv.endVisitType
  visitField := changesField_noting _ hv.visitField
  endVisitField := changesField_noting _ hv.endVisitField
  visitDeclaration := changesDeclared_noting hv.visitDeclaration
  endVisitDeclaration := changesDeclared_noting hv.endVisitDeclaration
  visitMethod := keepsJournal_noting v.visitMethod
  endVisitMethod := keepsJournal_noting v.endVisitMethod
  visitParameter := keepsJournal_noting v.visitParameter
  endVisitParameter := keepsJournal_noting v.endVisitParameter
  visitTag t := keepsJournal_noting (v.visitTag t)
  endVisitTag t := keepsJournal_noting (v.endVisitTag t)
  keepTags keep tags h := by
    obtain ⟨keep, -, rfl⟩ := Option.map_eq_some_iff.mp h
    exact keepsJournal_beside (keep tags)
  visitBlock := keepsJournal_noting v.visitBlock
  endVisitBlock := keepsJournal_noting v.endVisitBlock
  visitStmt := keepsJournal_noting v.visitStmt
  endVisitStmt := keepsJournal_noting v.endVisitStmt
  visitExpr := keepsJournal_noting v.visitExpr
  endVisitExpr := keepsJournal_noting v.endVisitExpr

end Visitor.Follows
end DeclIR
