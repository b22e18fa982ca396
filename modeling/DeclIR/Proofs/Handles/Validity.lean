import DeclIR.Proofs.Handles.Register

/-!
# Handles over whole runs

A handle that is handed out in a run stays good until its end: it resolves to what it was handed out
for, and no other handle does (`Operation.handles_runAll`).  What a scan of the program comes to has
a handle, and a name is looked up to the first handle that was handed out for it.
-/

namespace DeclIR

/-! ## Valid handles -/

/-- All handles that have been handed out for a program are good there. -/
structure Program.HandlesValid (p : Program) (issued : List Issue) : Prop where
  /-- Each handle resolves, to something with the signature that it was handed out for. -/
  resolves : ∀ x ∈ issued, p.signature? x.handle = some x.signature
  /-- No handle was handed out twice. -/
  nodup : (issued.map Issue.handle).Nodup
  /-- Another handle resolves to another type: it does not see what is put in the place of this
  one. -/
  type_apart : ∀ id t u, p.type? id = some t →
    (p.setType id u).type? id = some u ∧ ∀ id' ≠ id, (p.setType id u).type? id' = p.type? id'
  /-- Another handle resolves to another field, or to a method. -/
  field_apart : ∀ id f q, p.setField? id f = some q → q.field? id = some f ∧
    (∀ id' ≠ id, q.field? id' = p.field? id') ∧ ∀ id', q.method? id' = p.method? id'
  /-- Another handle resolves to another method, or to a field. -/
  method_apart : ∀ id m q, p.setMethod? id m = some q → q.method? id = some m ∧
    (∀ id' ≠ id, q.method? id' = p.method? id') ∧ ∀ id', q.field? id' = p.field? id'
  /-- A type knows its handle. -/
  type_id : ∀ id t, p.type? id = some t → t.id = id
  /-- A field knows its type, and has a handle that resolves to it. -/
  field_scanned : ∀ (i j : Nat) (t : DeclaredType) (f : Field), p.types[i]? = some t →
    t.fields[j]? = some f → f.owner = i ∧ p.field? ⟨f.owner, j⟩ = some f
  /-- A method knows its type, and has a handle that resolves to it. -/
  method_scanned : ∀ (i j : Nat) (t : DeclaredType) (m : Method), p.types[i]? = some t →
    t.methods[j]? = some m → m.owner = i ∧ p.method? ⟨m.owner, j⟩ = some m
  /-- Looking up a name gives the first handle that was handed out for a type with this name. -/
  typeByName : ∀ name, p.typeByName? name = issued.findSome? (Issue.typeNamed? name)
  /-- Looking up a name in a type gives the first handle that was handed out for a field of the
  type with this name. -/
  fieldByName : ∀ t ∈ p.types, ∀ name,
    t.fieldByName? name = issued.findSome? (Issue.fieldNamed? t.id name)

/-! ### Exchanging one entity -/

/-- Where one element is exchanged, a look-up that may not lead to that one finds what it found. -/
lemma ite_getElem?_set {α : Type} {P : Prop} [Decidable P] {l : List α} {i j : Nat} {a : α}
    (h : P → i ≠ j) :
    (if P then (l.set i a)[j]? else none) = if P then l[j]? else none := by
  by_cases hP : P
  · rw [if_pos hP, if_pos hP, List.getElem?_set_ne (h hP)]
  · rw [if_neg hP, if_neg hP]

namespace DeclaredType

variable {t : DeclaredType}

lemma method?_setField (t : DeclaredType) (index : Nat) (f : Field) (id : MethodId) :
    (t.setField index f).method? id = t.method? id := rfl

lemma field?_setMethod (t : DeclaredType) (index : Nat) (m : Method) (id : FieldId) :
    (t.setMethod index m).field? id = t.field? id := rfl

/-- An exchanged field is found by its own handle; others are found as before. -/
lemma field?_setField {id : FieldId} (h : (t.field? id).isSome) (f : Field) :
    (t.setField id.index f).field? id = some f ∧
      ∀ id' ≠ id, (t.setField id.index f).field? id' = t.field? id' := by
  obtain ⟨g, hg⟩ := Option.isSome_iff_exists.mp h
  obtain ⟨howner, hg⟩ := field?_eq_some_iff.mp hg
  have hlt : id.index < t.fields.length := (List.getElem?_eq_some_iff.mp hg).1
  refine ⟨field?_eq_some_iff.mpr ⟨howner, List.getElem?_set_self hlt⟩, fun id' hne => ?_⟩
  refine ite_getElem?_set fun howner' hindex => hne ?_
  exact congrArg₂ FieldId.mk (howner'.trans howner.symm) hindex.symm

/-- An exchanged method is found by its own handle; others are found as before. -/
lemma method?_setMethod {id : MethodId} (h : (t.method? id).isSome) (m : Method) :
    (t.setMethod id.index m).method? id = some m ∧
      ∀ id' ≠ id, (t.setMethod id.index m).method? id' = t.method? id' := by
  obtain ⟨n, hn⟩ := Option.isSome_iff_exists.mp h
  obtain ⟨howner, hn⟩ := method?_eq_some_iff.mp hn
  have hlt : id.index < t.methods.length := (List.getElem?_eq_some_iff.mp hn).1
  refine ⟨method?_eq_some_iff.mpr ⟨howner, List.getElem?_set_self hlt⟩, fun id' hne => ?_⟩
  refine ite_getElem?_set fun howner' hindex => hne ?_
  exact congrArg₂ MethodId.mk (howner'.trans howner.symm) hindex.symm

end DeclaredType

namespace Program

variable {p q : Program} {id : TypeId} {t u : DeclaredType}

/-- An exchanged type is found at its own position; others are found as before. -/
lemma type?_setType (ht : p.type? id = some t) :
    (p.setType id u).type? id = some u ∧ ∀ id' ≠ id, (p.setType id u).type? id' = p.type? id' :=
  ⟨List.getElem?_set_self (List.getElem?_eq_some_iff.mp ht).1,
    fun _ hne => List.getElem?_set_ne hne.symm⟩

/-- What two types agree on can be read off the program with the one or the other. -/
lemma bind_type?_setType {β : Type} {g : DeclaredType → Option β} (ht : p.type? id = some t)
    (h : g u = g t) (id' : TypeId) :
    ((p.setType id u).type? id').bind g = (p.type? id').bind g := by
  obtain ⟨hself, hothers⟩ := type?_setType (u := u) ht
  by_cases hid : id' = id
  · rw [hid, hself, ht, Option.bind_some, Option.bind_some, h]
  · rw [hothers id' hid]

/-- To exchange a field of a program is not seen through any other handle. -/
lemma setField?_apart {id : FieldId} {f : Field} (h : p.setField? id f = some q) :
    q.field? id = some f ∧ (∀ id' ≠ id, q.field? id' = p.field? id') ∧
      ∀ id', q.method? id' = p.method? id' := by
  obtain ⟨t, ht, hf, rfl⟩ := setField?_eq_some_iff.mp h
  obtain ⟨hself, hothers⟩ := DeclaredType.field?_setField hf f
  refine ⟨Option.bind_eq_some_iff.mpr ⟨_, (type?_setType ht).1, hself⟩, fun id' hne => ?_,
    fun id' => ?_⟩
  · exact bind_type?_setType ht (hothers id' hne) id'.owner
  · exact bind_type?_setType ht (t.method?_setField id.index f id') id'.owner

/-- To exchange a method of a program is not seen through any other handle. -/
lemma setMethod?_apart {id : MethodId} {m : Method} (h : p.setMethod? id m = some q) :
    q.method? id = some m ∧ (∀ id' ≠ id, q.method? id' = p.method? id') ∧
      ∀ id', q.field? id' = p.field? id' := by
  obtain ⟨t, ht, hm, rfl⟩ := setMethod?_eq_some_iff.mp h
  obtain ⟨hself, hothers⟩ := DeclaredType.method?_setMethod hm m
  refine ⟨Option.bind_eq_some_iff.mpr ⟨_, (type?_setType ht).1, hself⟩, fun id' hne => ?_,
    fun id' => ?_⟩
  · exact bind_type?_setType ht (hothers id' hne) id'.owner
  · exact bind_type?_setType ht (t.field?_setMethod id.index m id') id'.owner

end Program

namespace Register

variable {p : Program} {issued : List Issue}

/-- What the register lists is valid in every program with these outlines. -/
lemma handlesValid (h : Register p.outlines issued) : p.HandlesValid issued := by
  have houtline {i : Nat} {t : DeclaredType} (ht : p.types[i]? = some t) :
      p.outlines[i]? = some t.outline := by
    rw [Program.outlines, List.getElem?_map, ht, Option.map_some]
  have hid (i : Nat) (t : DeclaredType) (ht : p.types[i]? = some t) : t.id = i :=
    h.id_eq i t.outline (houtline ht)
  constructor
  case resolves =>
    intro x hx
    rw [p.signature?_eq]
    exact h.resolves x hx
  case nodup => exact h.nodup
  case type_apart => exact fun _ _ _ => Program.type?_setType
  case field_apart => exact fun _ _ _ => Program.setField?_apart
  case method_apart => exact fun _ _ _ => Program.setMethod?_apart
  case type_id => exact hid
  case field_scanned =>
    -- The register says who encloses a member, so the owner of a scanned field is the type scanned.
    intro i j t f ht hf
    have hmem : f.signature ∈ t.members .field := List.mem_map_of_mem (List.mem_of_getElem? hf)
    obtain rfl := Option.some.inj (h.enclosing_eq i t.outline (houtline ht) .field _ hmem)
    refine ⟨rfl, Option.bind_eq_some_iff.mpr ⟨t, ht, ?_⟩⟩
    exact DeclaredType.field?_eq_some_iff.mpr ⟨(hid _ t ht).symm, hf⟩
  case method_scanned =>
    intro i j t m ht hm
    have hmem : m.signature ∈ t.members .method := List.mem_map_of_mem (List.mem_of_getElem? hm)
    obtain rfl := Option.some.inj (h.enclosing_eq i t.outline (houtline ht) .method _ hmem)
    refine ⟨rfl, Option.bind_eq_some_iff.mpr ⟨t, ht, ?_⟩⟩
    exact DeclaredType.method?_eq_some_iff.mpr ⟨(hid _ t ht).symm, hm⟩
  case typeByName =>
    intro name
    -- Both look-ups stop at the first hit, one over the types and one over the handles.
    rw [← h.types name, Program.typeByName?, Program.outlines, List.findSome?_map,
      List.find?_eq_findSome?_guard, List.map_findSome?]
    refine congrArg (p.types.findSome? ·) (funext fun t => ?_)
    by_cases hname : t.name = name
    · simp [Outline.named?, DeclaredType.outline, DeclaredType.signature, hname]
    · simp [Outline.named?, DeclaredType.outline, DeclaredType.signature, hname]
  case fieldByName =>
    intro t ht name
    obtain ⟨i, ht⟩ := List.getElem?_of_mem ht
    rw [hid i t ht, ← h.fields i t.outline (houtline ht) name]
    unfold DeclaredType.fieldByName? DeclaredType.fieldIndex?
    rw [hid i t ht]
    simp only [DeclaredType.outline, DeclaredType.members, List.findIdx?_map]
    rfl

end Register

/-! ## Whole runs -/

namespace Operation

/-- Operations that spare the outlines keep the register, from any state that it fits. -/
lemma register_runAll {ops : List Operation} (hops : ∀ op ∈ ops, op.Spares) {p : Program}
    {issued : List Issue} (h : Register p.outlines issued) :
    Register (runAll ops p).program.outlines (issued ++ issues ops p) := by
  induction ops generalizing p issued with
  | nil =>
    rw [issues, List.append_nil]
    exact h
  | cons op rest ih =>
    obtain ⟨hop, hrest⟩ := List.forall_mem_cons.mp hops
    have hstep := ih hrest (h.step (adds hop p))
    rwa [List.append_assoc] at hstep

/-- In each run from the program without types on, all handles that are handed out stay good.  The
run may declare types, fields and methods, change them, and send visitors through the program, be it
with success or not.  It may not overwrite a field or let a visitor change nodes but by edits. -/
theorem handles_runAll (ops : List Operation) (hops : ∀ op ∈ ops, op.Spares) :
    (runAll ops .empty).program.HandlesValid (issues ops .empty) := by
  have hregister := register_runAll (p := .empty) hops Register.empty
  rw [List.nil_append] at hregister
  exact hregister.handlesValid

end Operation

/-! ### A run -/

/-- A visitor that spares nodes has nothing to account for. -/
lemma Visitor.Spares.follows {σ : Type} {v : Visitor σ} (hv : v.Spares) : v.Follows {} where
  visitType s := congrArg (·.fields) (hv.visitType s)
  endVisitType s := congrArg (·.fields) (hv.endVisitType s)
  visitField s := hv.visitField s
  endVisitField s := hv.endVisitField s
  visitDeclaration id info f c own := hv.visitDeclaration (.field id) info ⟨.field f, c, own⟩
  endVisitDeclaration id info f c own := hv.endVisitDeclaration (.field id) info ⟨.field f, c, own⟩

/-- The traversal by a visitor that spares nodes. -/
def Traversal.sparing {σ : Type} (v : Visitor σ) (own : σ) (hv : v.Spares) : Traversal where
  σ := σ
  visitor := v
  own := own
  account := {}
  follows := hv.follows

/-- Two types are declared, the second one inside of the first.  That one gets two fields of one
name and a method.  In between it is traversed by a visitor that adds up literals. -/
def Operation.declareNested : List Operation :=
  let field (isStatic : Bool) : Operation :=
    .construct (.change 1 (.addField .synthetic (.ofChar 'a') (.primitive .int) isStatic .plain))
  [.construct (.declareType .synthetic "Outer" .classType none),
   .construct (.declareType .synthetic "Inner" .classType (some 0)),
   field true,
   .traverse (.sparing Rewriter.adding.visitor [] Rewriter.adding.visitor_spares),
   field false,
   .construct (.change 1 (.field ⟨1, 0⟩ .setVolatile)),
   .construct (.change 1 (.addMethod .synthetic "run" false (.primitive .void))),
   .optimize {} Pipeline.inOrder]

/-- The five handles of that run stay good. -/
theorem Operation.handles_runAll_declareNested :
    (∀ op ∈ declareNested, op.Spares) ∧
    (runAll declareNested .empty).program.HandlesValid (issues declareNested .empty) ∧
    (issues declareNested .empty).map Issue.handle =
      [.type 0, .type 1, .member .field 1 0, .member .field 1 1, .member .method 1 2] := by
  have hspares : ∀ op ∈ declareNested, op.Spares := by
    simp only [declareNested, List.forall_mem_cons]
    exact ⟨rfl, rfl, rfl, Rewriter.adding.visitor_spares, rfl, rfl, rfl, trivial,
      List.forall_mem_nil _⟩
  exact ⟨hspares, handles_runAll declareNested hspares, by decide +kernel⟩

end DeclIR
