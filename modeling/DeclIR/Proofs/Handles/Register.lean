import DeclIR.Proofs.Handles.Outline

/-!
# Registers

Operations that declare something hand out a handle for it.  An operation that exchanges nothing in
place adds to the outline what it hands out a handle for, and nothing else (`Operation.adds`).

A register lists the handles that were handed out, in order, each with the signature that it was
handed out for.  One more operation and one more entry make it the register of the outline after
(`Register.step`).
-/

namespace DeclIR

/-! ## Handles that are handed out -/

/-- A handle, and the signature of what it was handed out for. -/
structure Issue where
  handle : Handle
  signature : Signature

namespace Issue

/-- The handle, if it is that of a type with this name. -/
def typeNamed? (name : String) (x : Issue) : Option TypeId :=
  match x.handle with
  | .type id => if x.signature.name = name then some id else none
  | .member .. => none

/-- The handle, if it is that of a field of this type with this name. -/
def fieldNamed? (owner : TypeId) (name : String) (x : Issue) : Option FieldId :=
  match x.handle with
  | .member .field o index =>
    if o = owner ∧ x.signature.name = name then some ⟨owner, index⟩ else none
  | _ => none

end Issue

/-- The handle that a change of a type hands out. -/
def TypeChange.issue? : TypeChange → DeclaredType → Option Issue
  | addField info name type isStatic d, t =>
    some ⟨(t.addField info name type isStatic d).2.handle,
      ⟨name.text, some type, some isStatic, some t.id⟩⟩
  | pushField f, t => (t.pushField? f).map fun pushed => ⟨pushed.2.handle, f.val.signature⟩
  | addMethod info name isStatic returnType, t =>
    some ⟨(t.addMethod info name isStatic returnType).2.handle,
      ⟨name, some returnType, some isStatic, some t.id⟩⟩
  | _, _ => none

/-- The handle that a change of a program hands out. -/
def Construction.issue? : Construction → Program → Option Issue
  | declareType info name kind enclosing, p =>
    some ⟨.type (p.declareType info name kind enclosing).2, ⟨name, none, none, enclosing⟩⟩
  | change id c, p => (p.type? id).bind c.issue?

namespace Operation

/-- The handle that an operation hands out. -/
def issue? : Operation → Program → Option Issue
  | construct c, p => c.issue? p
  | _, _ => none

/-- The handles that some operations hand out one after the other. -/
def issues : List Operation → Program → List Issue
  | [], _ => []
  | op :: rest, p => (op.issue? p).toList ++ issues rest (op.run p).program

/-- Nothing is exchanged in place: no field is overwritten, and a visitor changes a program by its
edits only. -/
def Spares : Operation → Prop
  | construct c => c.overwritten = []
  | traverse v | traverseType _ _ v | traverseField _ _ v => v.visitor.Spares
  | optimize .. | verify => True

end Operation

/-! ## What operations add -/

/-- What handing out a handle adds to the outlines: a type without fields or a member, behind the
others, with the signature that the handle is handed out for. -/
inductive Adds (outlines : List Outline) : Option Issue → List Outline → Prop
  | nothing : Adds outlines none outlines
  | type {o : Outline} (hid : o.id = outlines.length) (hfields : o.members .field = [])
      (henclosing : ∀ kind, ∀ s ∈ o.members kind, s.enclosing = some o.id) :
      Adds outlines (some ⟨.type o.id, o.signature⟩) (outlines ++ [o])
  | member {i : Nat} {o : Outline} (ho : outlines[i]? = some o) (kind : MemberKind) (s : Signature)
      (henclosing : s.enclosing = some o.id) :
      Adds outlines (some ⟨.member kind o.id (o.members kind).length, s⟩)
        (outlines.set i (o.add kind s))

/-- A change of a type keeps its outline, or adds to it the member that it hands out a handle
for. -/
lemma TypeChange.outline_of_run {c : TypeChange} (hc : c.overwritten = []) {t u : DeclaredType}
    (h : c.run t = some u) :
    (c.issue? t = none ∧ u.outline = t.outline) ∨
    ∃ kind s, s.enclosing = some t.id ∧ u.outline = t.outline.add kind s ∧
      c.issue? t = some ⟨.member kind t.id (t.outline.members kind).length, s⟩ := by
  cases c with
  | addField info name type isStatic d =>
    cases h
    refine .inr ⟨.field, _, rfl, t.outline_insertField _, ?_⟩
    simp [issue?, DeclaredType.addField, FieldId.handle, DeclaredType.outline,
      DeclaredType.members, Field.signature, Field.new]
  | pushField f =>
    obtain ⟨pushed, hpushed, rfl⟩ := Option.map_eq_some_iff.mp h
    -- A foreign field is refused, so the owner of an accepted one is the type.
    unfold DeclaredType.pushField? at hpushed
    obtain ⟨howner, hpushed⟩ := Option.ite_none_right_eq_some.mp hpushed
    cases hpushed
    refine .inr ⟨.field, _, congrArg some howner, t.outline_insertField _, ?_⟩
    simp [issue?, DeclaredType.pushField?, howner, FieldId.handle, DeclaredType.outline,
      DeclaredType.members]
  | addMethod info name isStatic returnType =>
    cases h
    refine .inr ⟨.method, _, rfl, t.outline_addMethod info name isStatic returnType, ?_⟩
    simp [issue?, DeclaredType.addMethod, MethodId.handle, DeclaredType.outline,
      DeclaredType.members]
  | setTags tags =>
    cases h
    exact .inl ⟨rfl, DeclaredType.outline_with rfl rfl⟩
  | field id c =>
    -- A change of a member is found by its handle and put back with the signature that it had.
    obtain ⟨f, hf, g, hg, rfl⟩ := run_field_eq_some_iff.mp h
    have hspares : c.overwrites = false := by
      simpa [overwritten] using hc
    exact .inl ⟨rfl, DeclaredType.outline_setField (DeclaredType.field?_eq_some_iff.mp hf).2
      (FieldChange.signature_of_run hspares hg)⟩
  | method id c =>
    obtain ⟨m, hm, n, hn, rfl⟩ := run_method_eq_some_iff.mp h
    exact .inl ⟨rfl, DeclaredType.outline_setMethod (DeclaredType.method?_eq_some_iff.mp hm).2
      (MethodChange.signature_of_run hn)⟩

/-- A change that is refused hands out nothing. -/
lemma TypeChange.issue?_of_refused {c : TypeChange} {t : DeclaredType} (h : c.run t = none) :
    c.issue? t = none := by
  cases c with
  | addField info name type isStatic d => cases h
  | pushField f =>
    rw [run, Option.map_eq_none_iff] at h
    rw [issue?, h, Option.map_none]
  | addMethod info name isStatic returnType => cases h
  | _ => rfl

namespace Construction

/-- A step that is refused issues no handle. -/
lemma issue?_of_refused {c : Construction} {p : Program} (h : c.run p = none) :
    c.issue? p = none := by
  cases c with
  | declareType info name kind enclosing => cases h
  | change id c =>
    show (p.type? id).bind c.issue? = none
    cases ht : p.type? id with
    | none => rfl
    | some t =>
      refine TypeChange.issue?_of_refused (Option.eq_none_iff_forall_ne_some.mpr ?_)
      simpa [run, ht] using h

/-- A new type has two methods, which say that they belong to it. -/
lemma adds_declareType (p : Program) (info : Provenance) (name : String) (kind : TypeKind)
    (enclosing : Option TypeId) :
    Adds p.outlines ((declareType info name kind enclosing).issue? p)
      (p.declareType info name kind enclosing).1.outlines := by
  let t := DeclaredType.new info p.types.length name kind enclosing
  have houtlines : (p.declareType info name kind enclosing).1.outlines =
      p.outlines ++ [t.outline] := List.map_append
  rw [houtlines]
  refine .type (o := t.outline) (List.length_map _).symm rfl fun kind s hs => ?_
  cases kind with
  | field => cases hs
  | method =>
    obtain ⟨m, hm, rfl⟩ := List.mem_map.mp hs
    simp only [t, DeclaredType.new, List.mem_cons, List.not_mem_nil, or_false] at hm
    rcases hm with rfl | rfl <;> rfl

/-- A change that overwrites nothing adds what it hands out a handle for. -/
lemma adds {c : Construction} (hc : c.overwritten = []) (p : Program) :
    Adds p.outlines (c.issue? p) (c.apply p).outlines := by
  unfold apply
  cases hrun : c.run p with
  | none =>
    rw [issue?_of_refused hrun]
    exact .nothing
  | some q =>
    cases c with
    | declareType info name kind enclosing =>
      cases hrun
      exact adds_declareType p info name kind enclosing
    -- What a type is given as a handle is what the program hands out for it.
    | change id c =>
      obtain ⟨t, ht, u, hu, rfl⟩ := run_change_eq_some_iff.mp hrun
      have hissue : (change id c).issue? p = c.issue? t := by rw [issue?, ht, Option.bind_some]
      rw [hissue, Option.getD_some]
      obtain ⟨hnone, houtline⟩ | ⟨kind, s, henclosing, houtline, hsome⟩ :=
        TypeChange.outline_of_run (List.map_eq_nil_iff.mp hc) hu
      · rw [hnone, Program.outlines_setType_of_eq ht houtline]
        exact .nothing
      · rw [hsome, Program.outlines_setType, houtline]
        refine .member (o := t.outline) ?_ kind s henclosing
        rw [Program.outlines, List.getElem?_map]
        exact congrArg (Option.map DeclaredType.outline) ht

end Construction

/-- An operation that exchanges nothing adds what it hands out a handle for. -/
theorem Operation.adds {op : Operation} (hop : op.Spares) (p : Program) :
    Adds p.outlines (op.issue? p) (op.run p).program.outlines := by
  -- Only changes hand out handles, so the others have to keep the outlines.
  have hkeeps (hissue : op.issue? p = none) (h : (op.run p).program.outlines = p.outlines) :
      Adds p.outlines (op.issue? p) (op.run p).program.outlines := by
    rw [hissue, h]
    exact .nothing
  cases op with
  | construct c => exact Construction.adds hop p
  | traverse v => exact hkeeps rfl (hop.outlines_walkProgram p v.own)
  | traverseType id c v =>
    refine hkeeps rfl ?_
    unfold run
    simp only
    cases ht : p.type? id with
    | none => rfl
    | some t => exact Program.outlines_setType_of_eq ht (hop.outline_walkType t c v.own)
  | traverseField id c v =>
    refine hkeeps rfl ?_
    unfold run
    simp only
    -- A field is walked alone and put back, so its type changes in this field at most.
    cases hf : p.field? id with
    | none => rfl
    | some f =>
      obtain ⟨t, ht, hf⟩ := Option.bind_eq_some_iff.mp hf
      simp only
      rw [Program.setField?_eq_some_iff.mpr ⟨t, ht, Option.isSome_of_eq_some hf, rfl⟩,
        Option.getD_some]
      exact Program.outlines_setType_of_eq ht (DeclaredType.outline_setField
        (DeclaredType.field?_eq_some_iff.mp hf).2 (hop.signature_walkField f c v.own))
  | optimize settings schedule => exact hkeeps rfl (outlines_optimize settings schedule p)
  | verify => exact hkeeps rfl (congrArg Program.outlines p.node_traverse_checker)

/-! ## Outlines that grow -/

/-- An outline may have further members behind those of another one. -/
structure Outline.Extends (o o' : Outline) : Prop where
  id_eq : o'.id = o.id
  signature_eq : o'.signature = o.signature
  members : ∀ kind, o.members kind <+: o'.members kind

lemma Outline.extends_refl (o : Outline) : o.Extends o := ⟨rfl, rfl, fun _ => List.prefix_refl _⟩

/-- An outline with one member more extends the one before. -/
lemma Outline.extends_add (o : Outline) (kind : MemberKind) (s : Signature) :
    o.Extends (o.add kind s) := by
  refine ⟨rfl, rfl, fun kind' => ?_⟩
  by_cases hkind : kind' = kind
  · subst hkind
    rw [members_add_self]
    exact List.prefix_append _ _
  · exact (members_add_of_ne hkind).symm ▸ List.prefix_refl _

section Growth

variable {outlines outlines' : List Outline}

/-- What was there before a step is there after it, and perhaps extended. -/
lemma Adds.extends {x : Option Issue} (hadds : Adds outlines x outlines') {i : Nat} {o : Outline}
    (ho : outlines[i]? = some o) : ∃ o', outlines'[i]? = some o' ∧ o.Extends o' := by
  have hlt : i < outlines.length := (List.getElem?_eq_some_iff.mp ho).1
  cases hadds with
  | nothing => exact ⟨o, ho, o.extends_refl⟩
  | type => exact ⟨o, (List.getElem?_append_left hlt).trans ho, o.extends_refl⟩
  | @member j o₁ ho₁ kind s =>
    by_cases hij : j = i
    · subst hij
      obtain rfl := Option.some.inj (ho₁.symm.trans ho)
      exact ⟨_, List.getElem?_set_self hlt, o₁.extends_add kind s⟩
    · exact ⟨o, (List.getElem?_set_ne hij).trans ho, o.extends_refl⟩

/-- What a handle stands for stays what it is. -/
lemma Adds.signatureAt?_eq_some {x : Option Issue} (hadds : Adds outlines x outlines') {h : Handle}
    {s : Signature} (hs : signatureAt? outlines h = some s) :
    signatureAt? outlines' h = some s := by
  cases h with
  | type id =>
    obtain ⟨o, ho, rfl⟩ := Option.map_eq_some_iff.mp hs
    obtain ⟨o', ho', hext⟩ := hadds.extends ho
    exact Option.map_eq_some_iff.mpr ⟨o', ho', hext.signature_eq⟩
  | member kind owner index =>
    obtain ⟨o, ho, hs⟩ := Option.bind_eq_some_iff.mp hs
    obtain ⟨o', ho', hext⟩ := hadds.extends ho
    obtain ⟨howner, hs⟩ := Option.ite_none_right_eq_some.mp hs
    obtain ⟨hlt, rfl⟩ := List.getElem?_eq_some_iff.mp hs
    refine Option.bind_eq_some_iff.mpr ⟨o', ho', ?_⟩
    rw [if_pos (howner.trans hext.id_eq.symm)]
    exact List.prefix_iff_getElem?.mp (hext.members kind) index hlt

end Growth

/-! ## Registers -/

/-- The identifier of a type, if it has this name. -/
def Outline.named? (name : String) (o : Outline) : Option TypeId :=
  if o.signature.name = name then some o.id else none

/-- All handles that have been handed out for what the outlines list. -/
structure Register (outlines : List Outline) (issued : List Issue) : Prop where
  id_eq : ∀ (i : Nat) (o : Outline), outlines[i]? = some o → o.id = i
  enclosing_eq : ∀ (i : Nat) (o : Outline), outlines[i]? = some o →
    ∀ kind, ∀ s ∈ o.members kind, s.enclosing = some i
  resolves : ∀ x ∈ issued, signatureAt? outlines x.handle = some x.signature
  nodup : (issued.map Issue.handle).Nodup
  types : ∀ name, outlines.findSome? (Outline.named? name) =
    issued.findSome? (Issue.typeNamed? name)
  fields : ∀ (i : Nat) (o : Outline), outlines[i]? = some o → ∀ name,
    ((o.members .field).findIdx? (·.name = name)).map (FieldId.mk i) =
      issued.findSome? (Issue.fieldNamed? i name)

lemma findSome?_set_of_eq {α β : Type} {f : α → Option β} {l : List α} {i : Nat} {a b : α}
    (ha : l[i]? = some a) (h : f b = f a) : (l.set i b).findSome? f = l.findSome? f := by
  have hmap := congrArg (List.findSome? id) (map_set_eq ha h)
  rwa [List.findSome?_map, List.findSome?_map] at hmap

/-- A member of one type has no name in another one. -/
lemma Issue.fieldNamed?_of_ne {kind : MemberKind} {owner i : TypeId} {index : Nat} {s : Signature}
    {name : String} (h : owner ≠ i) : fieldNamed? i name ⟨.member kind owner index, s⟩ = none := by
  cases kind with
  | field => simp [fieldNamed?, h]
  | method => rfl

/-- By its name, a field is found among the members there were, or it is the one that is added. -/
lemma Outline.map_findIdx?_add (o : Outline) (kind : MemberKind) (s : Signature) (name : String) :
    (((o.add kind s).members .field).findIdx? (·.name = name)).map (FieldId.mk o.id) =
      (((o.members .field).findIdx? (·.name = name)).map (FieldId.mk o.id)).or
        (Issue.fieldNamed? o.id name ⟨.member kind o.id (o.members kind).length, s⟩) := by
  cases kind with
  | field =>
    simp only [members_add_self, List.findIdx?_append, List.findIdx?_singleton, Option.map_or,
      Issue.fieldNamed?]
    by_cases hname : s.name = name
    · simp [hname]
    · simp [hname]
  | method =>
    rw [members_add_of_ne (by decide)]
    exact Option.or_none.symm

namespace Register

variable {outlines outlines' : List Outline} {issued : List Issue} {x : Issue} {o : Outline}

/-- Nothing is registered at first. -/
lemma empty : Register [] [] where
  id_eq := nofun
  enclosing_eq := nofun
  resolves := nofun
  nodup := List.nodup_nil
  types _ := rfl
  fields := nofun

/-- A handle that did not stand for anything is another one than those before. -/
lemma nodup_append (h : Register outlines issued) (hfresh : signatureAt? outlines x.handle = none) :
    ((issued ++ [x]).map Issue.handle).Nodup := by
  rw [List.map_append, List.map_singleton, List.nodup_append]
  refine ⟨h.nodup, List.pairwise_singleton _ _, fun a ha b hb heq => ?_⟩
  obtain ⟨y, hy, rfl⟩ := List.mem_map.mp ha
  rw [List.mem_singleton.mp hb] at heq
  rw [← heq, h.resolves y hy] at hfresh
  cases hfresh

/-- The handles issued before still resolve after one more is issued. -/
lemma resolves_append (h : Register outlines issued) (hadds : Adds outlines (some x) outlines')
    (hnew : signatureAt? outlines' x.handle = some x.signature) :
    ∀ y ∈ issued ++ [x], signatureAt? outlines' y.handle = some y.signature := by
  intro y hy
  rcases List.mem_append.mp hy with hy | hy
  · exact hadds.signatureAt?_eq_some (h.resolves y hy)
  · rw [List.mem_singleton.mp hy]
    exact hnew

/-- No field is handed out of a type that is not there. -/
lemma findSome?_fieldNamed?_eq_none (h : Register outlines issued) {i : TypeId}
    (hi : outlines.length ≤ i) (name : String) :
    issued.findSome? (Issue.fieldNamed? i name) = none := by
  rw [List.findSome?_eq_none_iff]
  rintro ⟨handle, s⟩ hy
  cases handle with
  | type id => rfl
  | member kind owner index =>
    obtain ⟨o, ho, -⟩ := Option.bind_eq_some_iff.mp (h.resolves _ hy)
    have hlt : owner < outlines.length := (List.getElem?_eq_some_iff.mp ho).1
    exact Issue.fieldNamed?_of_ne (Nat.ne_of_lt (Nat.lt_of_lt_of_le hlt hi))

/-- The register after a type is added: its handle is new, and no member is listed twice. -/
lemma step_type (h : Register outlines issued) (hid : o.id = outlines.length)
    (hfields : o.members .field = [])
    (henclosing : ∀ kind, ∀ s ∈ o.members kind, s.enclosing = some o.id) :
    Register (outlines ++ [o]) (issued ++ [⟨.type o.id, o.signature⟩]) := by
  -- What is there now was there before, or is the new type.
  have hcases (i : Nat) (o' : Outline) (ho' : (outlines ++ [o])[i]? = some o') :
      outlines[i]? = some o' ∨ i = outlines.length ∧ o' = o := by
    rcases Nat.lt_or_ge i outlines.length with hlt | hge
    · exact .inl (List.getElem?_append_left hlt ▸ ho')
    · rw [List.getElem?_append_right hge, List.getElem?_singleton,
        Option.ite_none_right_eq_some] at ho'
      obtain ⟨hi, ho'⟩ := ho'
      exact .inr ⟨Nat.le_antisymm (Nat.sub_eq_zero_iff_le.mp hi) hge,
        (Option.some.inj ho').symm⟩
  constructor
  case id_eq =>
    intro i o' ho'
    obtain ho' | ⟨rfl, rfl⟩ := hcases i o' ho'
    · exact h.id_eq i o' ho'
    · exact hid
  case enclosing_eq =>
    intro i o' ho'
    obtain ho' | ⟨rfl, rfl⟩ := hcases i o' ho'
    · exact h.enclosing_eq i o' ho'
    · exact hid ▸ henclosing
  case resolves =>
    exact h.resolves_append (.type hid hfields henclosing) (by simp [signatureAt?, hid])
  case nodup => exact h.nodup_append (by simp [signatureAt?, hid])
  case types =>
    intro name
    rw [List.findSome?_append, List.findSome?_append, h.types name]
    rfl
  case fields =>
    intro i o' ho' name
    rw [List.findSome?_append, show [Issue.mk (.type o.id) o.signature].findSome? _ = none from rfl,
      Option.or_none]
    obtain ho' | ⟨rfl, rfl⟩ := hcases i o' ho'
    · exact h.fields i o' ho' name
    · rw [hfields, h.findSome?_fieldNamed?_eq_none (Nat.le_refl _)]
      rfl

/-- The register after a member is added: its handle is new because it is the first with this index.
-/
lemma step_member (h : Register outlines issued) {i : Nat} (ho : outlines[i]? = some o)
    (kind : MemberKind) (s : Signature) (henclosing : s.enclosing = some o.id) :
    Register (outlines.set i (o.add kind s))
      (issued ++ [⟨.member kind o.id (o.members kind).length, s⟩]) := by
  obtain rfl := h.id_eq i o ho
  have hlt : o.id < outlines.length := (List.getElem?_eq_some_iff.mp ho).1
  -- Behind the change an outline is one of another position, or is the one with the new member.
  have hcases (j : Nat) (o' : Outline) (ho' : (outlines.set o.id (o.add kind s))[j]? = some o') :
      (o.id ≠ j ∧ outlines[j]? = some o') ∨ o.id = j ∧ o' = o.add kind s := by
    by_cases hj : o.id = j
    · subst hj
      rw [List.getElem?_set_self hlt] at ho'
      exact .inr ⟨rfl, (Option.some.inj ho').symm⟩
    · exact .inl ⟨hj, List.getElem?_set_ne hj ▸ ho'⟩
  constructor
  case id_eq =>
    intro j o' ho'
    obtain ⟨-, ho'⟩ | ⟨rfl, rfl⟩ := hcases j o' ho'
    · exact h.id_eq j o' ho'
    · rfl
  case enclosing_eq =>
    intro j o' ho'
    obtain ⟨-, ho'⟩ | ⟨rfl, rfl⟩ := hcases j o' ho'
    · exact h.enclosing_eq j o' ho'
    · intro kind' s' hs'
      rcases Outline.mem_members_add.mp hs' with hs' | ⟨-, rfl⟩
      · exact h.enclosing_eq o.id o ho kind' s' hs'
      · exact henclosing
  case resolves =>
    -- The new handle resolves to nothing before the change, since its index is the next free one.
    refine h.resolves_append (.member ho kind s henclosing) ?_
    simp [signatureAt?, List.getElem?_set_self hlt, (o.extends_add kind s).id_eq]
  case nodup =>
    refine h.nodup_append ?_
    simp [signatureAt?, ho]
  case types =>
    intro name
    rw [List.findSome?_append, findSome?_set_of_eq (b := o.add kind s) ho rfl,
      h.types name]
    exact Option.or_none.symm
  case fields =>
    intro j o' ho' name
    rw [List.findSome?_append]
    -- A field of another owner cannot have the name; at its own owner the new member comes last.
    obtain ⟨hj, ho'⟩ | ⟨rfl, rfl⟩ := hcases j o' ho'
    · rw [List.findSome?_singleton, Issue.fieldNamed?_of_ne hj, Option.or_none]
      exact h.fields j o' ho' name
    · rw [List.findSome?_singleton, ← h.fields o.id o ho name]
      exact o.map_findIdx?_add kind s name

/-- One step keeps the register, whether it issues a handle or not. -/
lemma step {x : Option Issue} (h : Register outlines issued) (hadds : Adds outlines x outlines') :
    Register outlines' (issued ++ x.toList) := by
  cases hadds with
  | nothing => simpa using h
  | type hid hfields henclosing => exact h.step_type hid hfields henclosing
  | member ho kind s henclosing => exact h.step_member ho kind s henclosing

end Register

end DeclIR
