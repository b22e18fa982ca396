import DeclIR.Proofs.Consistency.TypeByType
import DeclIR.Proofs.Legality.Accounts
import DeclIR.Proofs.Legality.Passes
import DeclIR.Proofs.Legality.Violations

/-!
# Flags over whole runs

A run is a list of operations on a program: changes, traversals by visitors that follow an account,
the standard pipeline and the check.  An operation that fails leaves the program as far as it got,
so that every program met on the way, be it in the middle of a traversal, is that of some run.

Each operation keeps the flags of all fields in agreement, and takes no flag from a field that it
does not overwrite (`Operation.evolves`).  By induction the same holds of whole runs
(`Operation.flags_runAll`).
-/

namespace DeclIR

open Visit

/-! ## Programs -/

namespace Program

/-- The field at a place, which names a type and a field of it by their positions. -/
def fieldAt? (p : Program) (place : FieldId) : Option Field :=
  (p.type? place.owner).bind (·.fields[place.index]?)

/-- The flags of each field agree. -/
def FlagsAgree (p : Program) : Prop := ∀ t ∈ p.types, ∀ f ∈ t.fields, f.flags.Agree

/-- The fields of a program, before and after.  There may be further types and fields after, but
each field from before is still in its place. -/
structure Evolves (overwritten : List FieldId) (p q : Program) : Prop where
  agree : p.FlagsAgree → q.FlagsAgree
  stays : ∀ place f, p.fieldAt? place = some f → ∃ g, q.fieldAt? place = some g ∧
    (place ∉ overwritten → f.flags.Grows g.flags)

namespace Evolves

variable {p q r : Program} {overwritten more : List FieldId}

/-- A program that stays evolves, with nothing overwritten. -/
lemma refl (overwritten : List FieldId) (p : Program) : p.Evolves overwritten p :=
  ⟨id, fun _ f hf => ⟨f, hf, fun _ => .refl _⟩⟩

/-- Programs evolve step by step, and what is overwritten adds up. -/
lemma trans (h : p.Evolves overwritten q) (h' : q.Evolves more r) :
    p.Evolves (overwritten ++ more) r where
  agree := h'.agree ∘ h.agree
  stays place f hf := by
    obtain ⟨g, hg, hfg⟩ := h.stays place f hf
    obtain ⟨k, hk, hgk⟩ := h'.stays place g hg
    refine ⟨k, hk, fun hplace => ?_⟩
    rw [List.mem_append, not_or] at hplace
    exact (hfg hplace.1).trans (hgk hplace.2)

/-- A program evolves if the fields of each type do. -/
lemma of_pointwise (h : Pointwise (fun i a b => FieldsEvolve i overwritten a.fields b.fields)
    p.types q.types) : p.Evolves overwritten q where
  agree := h.forall_mem fun _ _ _ hab => hab.agree
  stays place f hf := by
    obtain ⟨t, ht, hf⟩ := Option.bind_eq_some_iff.mp hf
    obtain ⟨u, hu, htu⟩ := h.getElem? place.owner t ht
    obtain ⟨g, hg, hfg⟩ := htu.stays place.index f hf
    exact ⟨g, Option.bind_eq_some_iff.mpr ⟨u, hu, hg⟩, hfg⟩

/-- A program evolves if the fields of one type do and the others stay. -/
lemma setType {id : TypeId} {t u : DeclaredType} (ht : p.type? id = some t)
    (h : FieldsEvolve id overwritten t.fields u.fields) :
    p.Evolves overwritten (p.setType id u) :=
  of_pointwise (.set (fun i a => .refl i overwritten a.fields) ht h)

end Evolves

/-- A new type has no fields. -/
lemma evolves_declareType (p : Program) (info : Provenance) (name : String) (kind : TypeKind)
    (enclosing : Option TypeId) : p.Evolves [] (p.declareType info name kind enclosing).1 where
  agree h t ht := by
    rcases List.mem_append.mp ht with ht | ht
    · exact h t ht
    · rw [List.mem_singleton.mp ht]
      nofun
  stays place f hf := by
    obtain ⟨t, ht, hf⟩ := Option.bind_eq_some_iff.mp hf
    have hlt : place.owner < p.types.length := (List.getElem?_eq_some_iff.mp ht).1
    refine ⟨f, Option.bind_eq_some_iff.mpr ⟨t, ?_, hf⟩, fun _ => .refl _⟩
    exact (List.getElem?_append_left hlt).trans ht

end Program

/-! ## Operations -/

/-- A visitor with an account of what its hooks do to fields, and a state for it to start from. -/
structure Traversal where
  σ : Type
  visitor : Visitor σ
  own : σ
  account : Account σ
  follows : visitor.Follows account

namespace Traversal

variable {ν : Type}

/-- The visitor that also keeps a journal. -/
def chronicle (v : Traversal) : Visitor (v.σ × Journal) := v.visitor.chronicle v.account

/-- The places of the fields that a walk overwrites, from a node and a place on. -/
def overwritten (v : Traversal) (walk : {σ : Type} → Visitor σ → Visit σ ν Unit) (n : ν)
    (c : Context) (start : Journal) : List FieldId :=
  ((walk v.chronicle).after ⟨n, c, (v.own, start)⟩).own.2.overwritten

end Traversal

/-- What can be done with a program. -/
inductive Operation : Type 1 where
  | construct (c : Construction)
  | traverse (v : Traversal)
  /-- Traverses a type on its own. -/
  | traverseType (id : TypeId) (c : Context) (v : Traversal)
  /-- Traverses a field on its own. -/
  | traverseField (id : FieldId) (c : Context) (v : Traversal)
  | optimize (settings : Settings) (schedule : Pipeline.Schedule)
  | verify

/-- What an operation does: the program that it leaves, whether it fails or not, and the places of
the fields that it overwrites. -/
structure Effect where
  program : Program
  overwritten : List FieldId := []

/-- The places of the fields that a change overwrites. -/
def Construction.overwritten : Construction → List FieldId
  | declareType .. => []
  | change id c => c.overwritten.map fun i => ⟨id, i⟩

namespace Operation

/-- Changes the field that a handle names. -/
def changeField (id : FieldId) (c : FieldChange) : Operation :=
  construct (.change id.owner (.field id c))

/-- Carries out an operation. -/
def run (op : Operation) (p : Program) : Effect :=
  match op with
  | construct c => ⟨c.apply p, c.overwritten⟩
  | traverse v =>
    ⟨(endState (p.traverse v.visitor v.own)).node, v.overwritten Visitor.walkProgram p {} {}⟩
  | traverseType id c v =>
    match p.type? id with
    | some t =>
      ⟨p.setType id (v.visitor.walkType.after ⟨t, c, v.own⟩).node,
        v.overwritten Visitor.walkType t c { type := id }⟩
    | none => ⟨p, []⟩
  | traverseField id c v =>
    match p.field? id with
    | some f =>
      ⟨(p.setField? id (v.visitor.walkField.after ⟨f, c, v.own⟩).node).getD p,
        v.overwritten Visitor.walkField f c { type := id.owner, field := id.index }⟩
    | none => ⟨p, []⟩
  | optimize settings schedule => ⟨endState (DeclIR.optimize settings schedule p), []⟩
  | verify => ⟨(endState (p.traverse checker {})).node, []⟩

/-- Carries out some operations one after the other. -/
def runAll : List Operation → Program → Effect
  | [], p => ⟨p, []⟩
  | op :: rest, p =>
    let first := op.run p
    let later := runAll rest first.program
    ⟨later.program, first.overwritten ++ later.overwritten⟩

end Operation

/-! ## One operation -/

/-- A step of construction lets a program evolve, whether it is refused or not. -/
lemma Construction.evolves (c : Construction) (p : Program) :
    p.Evolves c.overwritten (c.apply p) := by
  cases c with
  | declareType info name kind enclosing => exact p.evolves_declareType info name kind enclosing
  | change id c =>
    unfold apply
    cases hrun : (change id c).run p with
    | none => exact .refl ..
    | some q =>
      obtain ⟨t, ht, u, hu, rfl⟩ := run_change_eq_some_iff.mp hrun
      have hplaces : ∀ i ∈ c.overwritten, ⟨id, i⟩ ∈ (change id c).overwritten :=
        fun i hi => List.mem_map_of_mem hi
      have hfields := TypeChange.fields_evolve (t := t) hplaces
      unfold TypeChange.apply at hfields
      rw [hu] at hfields
      exact .setType ht hfields

namespace Traversal

variable (v : Traversal) {p : Program}

lemma journals : v.chronicle.Journals Prod.snd := v.follows.journals

lemma erasesTo : v.chronicle.ErasesTo Prod.fst v.visitor := v.visitor.chronicle_erasesTo v.account

/-- A traversal lets a program evolve, except where its journal says that it overwrites. -/
lemma traverse_evolves (p : Program) :
    p.Evolves (v.overwritten Visitor.walkProgram p {} {})
      (endState (p.traverse v.visitor v.own)).node := by
  have hwalk := v.journals.walkProgram p {} (v.own, {})
  have herase := v.erasesTo.walkProgram.after ⟨p, {}, (v.own, {})⟩
  simp only [Nat.zero_add] at hwalk
  show p.Evolves _ (v.visitor.walkProgram.after ⟨p, {}, v.own⟩).node
  exact .of_pointwise ((congrArg Site.node herase) ▸ hwalk)

/-- So does the visit of one of its types. -/
lemma traverseType_evolves {id : TypeId} {t : DeclaredType} (ht : p.type? id = some t)
    (c : Context) :
    p.Evolves (v.overwritten Visitor.walkType t c { type := id })
      (p.setType id (v.visitor.walkType.after ⟨t, c, v.own⟩).node) := by
  obtain ⟨succeeds, hends⟩ := v.journals.walkType.after ⟨t, c, (v.own, { type := id })⟩
  have herase := v.erasesTo.walkType.after ⟨t, c, (v.own, { type := id })⟩
  exact .setType ht ((congrArg Site.node herase) ▸ hends.fields)

/-- So does the visit of one of its fields. -/
lemma traverseField_evolves {id : FieldId} {f : Field} (hf : p.field? id = some f) (c : Context) :
    p.Evolves (v.overwritten Visitor.walkField f c { type := id.owner, field := id.index })
      ((p.setField? id (v.visitor.walkField.after ⟨f, c, v.own⟩).node).getD p) := by
  let start : Journal := { type := id.owner, field := id.index }
  obtain ⟨t, ht, hf⟩ := Option.bind_eq_some_iff.mp hf
  obtain ⟨succeeds, hgrows, hlets, -⟩ := v.journals.walkField.after ⟨f, c, (v.own, start)⟩
  have herase := v.erasesTo.walkField.after ⟨f, c, (v.own, start)⟩
  have hset (g : Field) :
      p.setField? id g = some (p.setType id.owner (t.setField id.index g)) :=
    Program.setField?_eq_some_iff.mpr ⟨t, ht, Option.isSome_of_eq_some hf, rfl⟩
  have hfields := FieldsEvolve.of_pointwise
    (.set (Journal.Lets.refl _) (DeclaredType.field?_eq_some_iff.mp hf).2 hlets)
  rw [hgrows.type_eq] at hfields
  rw [hset, Option.getD_some]
  exact .setType ht ((congrArg Site.node herase) ▸ hfields)

end Traversal

/-- Fields whose flags stay evolve. -/
lemma FieldsEvolve.of_sameFlags {type : Nat} {overwritten : List FieldId} {l l' : List Field}
    (h : SameFlags l l') : FieldsEvolve type overwritten l l' :=
  .of_pointwise (j := { type, overwritten }) (h.mono fun _ _ _ => .of_flags_eq)

/-- An operation keeps each field in its place and its flags in agreement, and takes no flag from a
field that it does not overwrite. -/
theorem Operation.evolves (op : Operation) (p : Program) :
    p.Evolves (op.run p).overwritten (op.run p).program := by
  unfold run
  -- Only what a change or a hook overwrites is exempt; passes and checks overwrite nothing.
  cases op with
  | construct c => exact c.evolves p
  | traverse v => exact v.traverse_evolves p
  | traverseType id c v =>
    simp only
    cases ht : p.type? id with
    | none => exact .refl ..
    | some t => exact v.traverseType_evolves ht c
  | traverseField id c v =>
    simp only
    cases hf : p.field? id with
    | none => exact .refl ..
    | some f => exact v.traverseField_evolves hf c
  | optimize settings schedule =>
    exact .of_pointwise ((optimize_sameFlags settings schedule p).mono fun _ _ _ => .of_sameFlags)
  | verify =>
    simp only [p.node_traverse_checker]
    exact .refl [] p

/-! ## Whole runs -/

namespace Operation

/-- A run of operations lets a program evolve, except at the places that one of them overwrites. -/
lemma evolves_runAll (ops : List Operation) (p : Program) :
    p.Evolves (runAll ops p).overwritten (runAll ops p).program := by
  induction ops generalizing p with
  | nil => exact .refl [] p
  | cons op rest ih => exact (op.evolves p).trans (ih _)

/-- A refused change leaves the program as it is. -/
lemma changeField_of_error {p : Program} {id : FieldId} {c : FieldChange} {f : Field} {e : Fault}
    (hf : p.field? id = some f) (hrun : c.run f = .error e) :
    ((changeField id c).run p).program = p := by
  obtain ⟨t, ht, hf⟩ := Option.bind_eq_some_iff.mp hf
  show ((Construction.change id.owner (.field id c)).run p).getD p = p
  simp [Construction.run, TypeChange.run, ht, hf, hrun, Except.toOption]

/-- A change that is not refused is made. -/
lemma field?_changeField_of_ok {p : Program} {id : FieldId} {c : FieldChange} {f g : Field}
    (hf : p.field? id = some f) (hrun : c.run f = .ok g) :
    ((changeField id c).run p).program.field? id = some g := by
  obtain ⟨t, ht, hf⟩ := Option.bind_eq_some_iff.mp hf
  have hchanged : (Construction.change id.owner (.field id c)).run p =
      some (p.setType id.owner (t.setField id.index g)) := by
    simp [Construction.run, TypeChange.run, ht, hf, hrun, Except.toOption]
  obtain ⟨howner, hf⟩ := DeclaredType.field?_eq_some_iff.mp hf
  have htype : (p.setType id.owner (t.setField id.index g)).type? id.owner =
      some (t.setField id.index g) :=
    List.getElem?_set_self (List.getElem?_eq_some_iff.mp ht).1
  have hfield : (t.setField id.index g).field? id = some g :=
    DeclaredType.field?_eq_some_iff.mpr
      ⟨howner, List.getElem?_set_self (List.getElem?_eq_some_iff.mp hf).1⟩
  show (((Construction.change id.owner (.field id c)).run p).getD p).field? id = some g
  rw [hchanged]
  exact Option.bind_eq_some_iff.mpr ⟨_, htype, hfield⟩

/-- After any run from the program without types on, the flags of all fields agree.  Whatever is
done next, each field stays in its place, and if it is not overwritten it may become final or
volatile, and its flags do not change otherwise.  It can become final just if it is not volatile,
and the other way round; a change that is refused leaves the field as it is, in a hook and in the
program, and any other change is made.  The check never reports that flags do not agree. -/
theorem flags_runAll (ops : List Operation) :
    let p := (runAll ops .empty).program
    p.FlagsAgree ∧
    (∀ (more : List Operation) (place : FieldId) (f : Field), p.fieldAt? place = some f →
      ∃ g, (runAll more p).program.fieldAt? place = some g ∧
        (place ∉ (runAll more p).overwritten → f.flags.Grows g.flags)) ∧
    (∀ f : Field, ((∃ e, f.setFinal = .error e) ↔ f.isVolatile = true) ∧
      ((∃ e, f.setVolatile = .error e) ↔ f.isFinal = true)) ∧
    (∀ (c : FieldChange) (f : Field) (e : Fault), c.run f = .error e →
      (∀ (σ : Type) (s : Site σ Field), s.node = f → attempt c.run s = .error e s) ∧
      ∀ id, p.field? id = some f → ((changeField id c).run p).program = p) ∧
    (∀ (c : FieldChange) (f g : Field), c.run f = .ok g →
      ∀ id, p.field? id = some f → ((changeField id c).run p).program.field? id = some g) ∧
    ∀ v : Violation, v.isDisagreement = true → ∀ (typeName name : String) (info : Provenance),
      p.verify ≠ .error (.violation typeName (v.text name) info) := by
  intro p
  have hempty : Program.empty.FlagsAgree := nofun
  have hp : p.FlagsAgree := (evolves_runAll ops .empty).agree hempty
  refine ⟨hp, fun more => (evolves_runAll more p).stays, ?_, ?_, ?_, ?_⟩
  · intro f
    constructor
    · unfold Field.setFinal
      cases f.isVolatile <;> simp
    · unfold Field.setVolatile
      cases f.isFinal <;> simp
  · intro c f e hrun
    refine ⟨?_, fun id hf => changeField_of_error hf hrun⟩
    rintro σ s rfl
    rw [attempt_apply, hrun]
  · intro c f g hrun id hf
    exact field?_changeField_of_ok hf hrun
  · intro v hv
    exact Program.verify_ne_disagreement hp hv

end Operation

/-- The visitor that makes the fields final one after the other, up to the first volatile one. -/
def sealer : Visitor Unit where
  visitField := do
    attempt FieldChange.setFinal.run
    return true

/-- The traversal by that visitor. -/
def Traversal.sealing : Traversal where
  σ := Unit
  visitor := sealer
  own := ()
  account := { visitField := fun _ => [.setFinal] }
  follows := {
    visitType _ := rfl
    endVisitType _ := rfl
    visitField s := by
      have hhook : sealer.visitField =
          attempt FieldChange.setFinal.run >>= fun _ => pure true := rfl
      show (sealer.visitField.after s).node = FieldChange.setFinal.apply s.node
      rw [hhook]
      unfold after FieldChange.apply
      rw [bind_apply, attempt_apply]
      cases FieldChange.setFinal.run s.node <;> rfl
    endVisitField _ := rfl
    visitDeclaration _ _ _ _ _ := rfl
    endVisitDeclaration _ _ _ _ _ := rfl }

/-- A class with a plain field, a volatile one and another plain one is declared and traversed.  The
first field is to become volatile then, and the second one is overwritten by a constant. -/
def Operation.sealedFields : List Operation :=
  let constant : BuiltField :=
    ⟨_, .new .synthetic (.ofChar 'K') 0 (.primitive .int) false .constant⟩
  let field (name : Name) (d : Disposition) : Operation :=
    .construct (.change 0 (.addField .synthetic name (.primitive .int) false d))
  [.construct (.declareType .synthetic "C" .classType none),
   field (.ofChar 'a') .plain,
   field (.ofChar 'b') .volatile,
   field (.ofChar 'c') .plain,
   .traverse .sealing,
   .changeField ⟨0, 0⟩ .setVolatile,
   .changeField ⟨0, 1⟩ (.overwrite constant),
   .optimize ⟨true, true⟩ Pipeline.inOrder,
   .verify]

/-- The traversal ends at the volatile field, and the first field stays final. -/
theorem Operation.flags_runAll_sealedFields :
    (runAll sealedFields .empty).program.FlagsAgree ∧
    (runAll sealedFields .empty).overwritten = [⟨0, 1⟩] ∧
    (runAll sealedFields .empty).program.types.map (·.fields.map Field.flags) =
      [[⟨true, false, false, false, false⟩, ⟨true, false, false, true, false⟩,
        ⟨false, false, false, false, false⟩]] :=
  ⟨(flags_runAll sealedFields).1, by decide +kernel, by decide +kernel⟩

end DeclIR
