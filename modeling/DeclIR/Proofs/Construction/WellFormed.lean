import DeclIR.Proofs.Consistency.Criterion
import DeclIR.Proofs.Construction.Changes

/-!
# Constructed programs are well-formed

As long as no field is overwritten and the code that comes into the bodies declares local variables
only, and none into the initializers, a program that is constructed stays well-formed: each
initializer consists of the anchors of its fields, in order (`DeclaredType.WellFormed`).  The one
thing that the check can then find fault with is a static capture.
-/

namespace DeclIR

open DeclaredType (initializerIndex)

/-! ## Well-formed types -/

/-- The anchor stands for one of the method's local variables. -/
def Anchor.IsLocal (a : Anchor) (m : Method) : Prop :=
  ∃ i, a.slot = .localVar i ∧ i < m.locals.length

/-- The anchors of the fields of one staticness, by position. -/
def DeclaredType.fieldAnchors (t : DeclaredType) (isStatic : Bool) : List Stmt :=
  (t.fields.zipIdx.filter fun x => x.1.isStatic = isStatic).map fun x =>
    .declare x.1.info (.field ⟨t.id, x.2⟩)

/-- The method is the initializer for the fields of one staticness. -/
structure Method.Initializes (m : Method) (t : DeclaredType) (isStatic : Bool) : Prop where
  name_eq : m.name = if isStatic then staticInitializerName else instanceInitializerName
  owner_eq : m.owner = t.id
  isStatic_eq : m.isStatic = isStatic
  body_eq : ∃ info, m.body = some ⟨info, t.fieldAnchors isStatic⟩

/-- What a method initializes depends on the identity of the type and its anchors only. -/
lemma Method.Initializes.congr {m : Method} {t t' : DeclaredType} {isStatic : Bool}
    (h : m.Initializes t isStatic) (hid : t'.id = t.id)
    (hanchors : t'.fieldAnchors isStatic = t.fieldAnchors isStatic) :
    m.Initializes t' isStatic where
  name_eq := h.name_eq
  owner_eq := h.owner_eq.trans hid.symm
  isStatic_eq := h.isStatic_eq
  body_eq := hanchors ▸ h.body_eq

/-- The fields' flags agree, the first two methods declare the fields, and the others declare local
variables. -/
structure DeclaredType.WellFormed (t : DeclaredType) : Prop where
  owner_eq : ∀ f ∈ t.fields, f.owner = t.id
  agree : ∀ f ∈ t.fields, f.flags.Agree
  initializes : ∀ isStatic, ∃ m, t.methods[initializerIndex isStatic]? = some m ∧
    m.Initializes t isStatic
  isLocal : ∀ i m, 2 ≤ i → t.methods[i]? = some m → ∀ a ∈ m.anchors, a.IsLocal m

/-! ## Changes that keep types well-formed -/

/-- The code that the change brings in declares local variables only, and is not for one of the
first two methods. -/
def MethodChange.Admitted (c : MethodChange) (index : Nat) (m : Method) : Prop :=
  (c.entersBody = true → 2 ≤ index) ∧ ∀ a ∈ stmtsAnchors c.code, a.IsLocal m

/-- The change overwrites no field, and brings in nothing but code that is admitted. -/
def TypeChange.Admitted (t : DeclaredType) : TypeChange → Prop
  | field _ c => c.overwrites = false
  | method id c => ∀ m, t.method? id = some m → c.Admitted id.index m
  | _ => True

/-- The change is admitted for the type that it is a change of. -/
def Construction.Admitted (p : Program) : Construction → Prop
  | declareType .. => True
  | change id c => ∀ t, p.type? id = some t → c.Admitted t

/-- Each change is admitted when its turn comes. -/
def Construction.AllAdmitted : List Construction → Program → Prop
  | [], _ => True
  | c :: rest, p => c.Admitted p ∧ AllAdmitted rest (c.apply p)

/-! ### Methods -/

namespace MethodChange

variable {c : MethodChange} {m m' : Method}

/-- What a change leaves of a method. -/
structure Keeps (c : MethodChange) (m m' : Method) : Prop where
  name_eq : m'.name = m.name
  owner_eq : m'.owner = m.owner
  isStatic_eq : m'.isStatic = m.isStatic
  locals_le : m.locals.length ≤ m'.locals.length
  body_eq : c.entersBody = false → m'.body = m.body
  anchors_of : ∀ a ∈ m'.anchors, a ∈ m.anchors ∨ a ∈ stmtsAnchors c.code

/-- A change of a local variable is not seen in the rest of the method. -/
lemma keeps_onLocal {f : Variable → Variable} {i : Nat} (h : onLocal f i m = some m') :
    c.Keeps m m' := by
  obtain ⟨v, -, rfl⟩ := Option.map_eq_some_iff.mp h
  exact ⟨rfl, rfl, rfl, by simp, fun _ => rfl, fun _ => .inl⟩

/-- A change of a method keeps its name, owner and staticness, and adds no anchors but those of new
code. -/
lemma keeps_of_run (h : c.run m = some m') : c.Keeps m m' := by
  cases c with
  | addParameter v =>
    cases h
    exact ⟨rfl, rfl, rfl, Nat.le_refl _, fun _ => rfl, fun _ => .inl⟩
  | addLocal v =>
    cases h
    exact ⟨rfl, rfl, rfl, by simp [Method.addLocal], fun _ => rfl, fun _ => .inl⟩
  | setLocalFinal i => exact keeps_onLocal h
  | declareLocal i d => exact keeps_onLocal h
  -- A body that is set replaces the anchors of the one before, so an initializer must not get one.
  | setBody b =>
    cases h
    refine ⟨rfl, rfl, rfl, Nat.le_refl _, nofun, fun a ha => .inr ?_⟩
    rwa [Method.anchors_of_body rfl] at ha
  -- A body that is extended keeps its anchors in front of those of the new code.
  | extendBody code =>
    obtain ⟨b, hb, rfl⟩ := Option.map_eq_some_iff.mp h
    refine ⟨rfl, rfl, rfl, Nat.le_refl _, nofun, fun a ha => ?_⟩
    rw [Method.anchors_of_body rfl, stmtsAnchors_append, List.mem_append] at ha
    rwa [Method.anchors_of_body hb]

/-- Changes of a method keep the local variables that its anchors stand for. -/
lemma isLocal_of_run {a : Anchor} (h : c.run m = some m') (ha : a.IsLocal m) : a.IsLocal m' := by
  obtain ⟨i, hslot, hi⟩ := ha
  exact ⟨i, hslot, Nat.lt_of_lt_of_le hi (keeps_of_run h).locals_le⟩

end MethodChange

/-! ### Types -/

namespace DeclaredType

variable {t : DeclaredType}

/-- The anchors of the fields follow from what the fields say of themselves. -/
lemma fieldAnchors_congr {t' : DeclaredType} (hid : t'.id = t.id)
    (hfields : t'.fields.map (fun f => (f.info, f.isStatic)) =
      t.fields.map fun f => (f.info, f.isStatic)) (isStatic : Bool) :
    t'.fieldAnchors isStatic = t.fieldAnchors isStatic := by
  have heq (k : DeclaredType) : k.fieldAnchors isStatic =
      ((k.fields.map fun f => (f.info, f.isStatic)).zipIdx.filter
        fun x => x.1.2 = isStatic).map fun x => .declare x.1.1 (.field ⟨k.id, x.2⟩) := by
    unfold fieldAnchors
    rw [List.zipIdx_map, List.filter_map, List.map_map]
    rfl
  rw [heq, heq, hid, hfields]

lemma initializerIndex_lt (isStatic : Bool) : initializerIndex isStatic < 2 := by
  cases isStatic <;> decide

/-- A new type is well-formed, as it has no fields to be initialized. -/
lemma wellFormed_new (info : Provenance) (id : TypeId) (name : String) (kind : TypeKind)
    (enclosing : Option TypeId) : (new info id name kind enclosing).WellFormed where
  owner_eq := nofun
  agree := nofun
  initializes isStatic := by
    refine ⟨emptyInitializer info id isStatic, ?_, rfl, rfl, rfl, info, rfl⟩
    cases isStatic <;> rfl
  isLocal i m hi hm := by
    have : (new info id name kind enclosing).methods[i]? = none :=
      List.getElem?_eq_none (by simpa [new] using hi)
    rw [this] at hm
    cases hm

/-- A field that is inserted is anchored behind the others of its staticness. -/
lemma fieldAnchors_insertField (f : Field) (isStatic : Bool) :
    (t.insertField f).fieldAnchors isStatic = t.fieldAnchors isStatic ++
      if f.isStatic = isStatic then [.declare f.info (.field ⟨t.id, t.fields.length⟩)] else [] := by
  unfold fieldAnchors insertField
  rw [List.zipIdx_append, List.filter_append, List.map_append]
  by_cases h : f.isStatic = isStatic
  · simp [h]
  · simp [h]

/-- A field that is inserted puts its anchor into the initializer of its staticness, and leaves the
other one as it is. -/
lemma initializer_insertField {f : Field} {isStatic : Bool} {m : Method}
    (hm : t.methods[initializerIndex isStatic]? = some m) :
    (t.insertField f).methods[initializerIndex isStatic]? =
      some (if f.isStatic = isStatic then
        anchorIn m f.info (.field ⟨t.id, t.fields.length⟩) else m) := by
  have hindex : initializerIndex f.isStatic = initializerIndex isStatic ↔
      f.isStatic = isStatic := by
    cases f.isStatic <;> cases isStatic <;> decide
  show (t.methods.modify _ _)[_]? = _
  rw [List.getElem?_modify, hm]
  by_cases heq : f.isStatic = isStatic
  · simp [heq]
  · simp [heq, hindex]

/-- A type stays well-formed if a field of its own is inserted whose flags agree. -/
lemma wellFormed_insertField {f : Field} (h : t.WellFormed) (howner : f.owner = t.id)
    (hagree : f.flags.Agree) : (t.insertField f).WellFormed where
  owner_eq g hg := by
    rcases List.mem_append.mp hg with hg | hg
    · exact h.owner_eq g hg
    · rw [List.mem_singleton.mp hg]
      exact howner
  agree g hg := by
    rcases List.mem_append.mp hg with hg | hg
    · exact h.agree g hg
    · rw [List.mem_singleton.mp hg]
      exact hagree
  initializes isStatic := by
    obtain ⟨m, hm, hinit⟩ := h.initializes isStatic
    refine ⟨_, initializer_insertField hm, ?_⟩
    by_cases heq : f.isStatic = isStatic
    · -- The field's anchor comes behind those of the fields before it.
      obtain ⟨info, hbody⟩ := hinit.body_eq
      have hanchors := t.fieldAnchors_insertField f isStatic
      rw [if_pos heq] at hanchors ⊢
      unfold anchorIn Method.mapStmts?
      rw [hbody]
      exact ⟨hinit.name_eq, hinit.owner_eq, hinit.isStatic_eq, info, by rw [hanchors]; rfl⟩
    · have hanchors := t.fieldAnchors_insertField f isStatic
      rw [if_neg heq, List.append_nil] at hanchors
      rw [if_neg heq]
      exact hinit.congr rfl hanchors
  isLocal i m hi hm := by
    have hne : initializerIndex f.isStatic ≠ i := by
      have := initializerIndex_lt f.isStatic
      omega
    have hm : (t.methods.modify (initializerIndex f.isStatic) _)[i]? = some m := hm
    -- The other methods keep their anchors, which are of local variables.
    rw [List.getElem?_modify_ne _ _ hne] at hm
    exact h.isLocal i m hi hm

/-- A type stays well-formed if a method is added. -/
lemma wellFormed_addMethod (h : t.WellFormed) (info : Provenance) (name : String)
    (isStatic : Bool) (returnType : Ty) :
    (t.addMethod info name isStatic returnType).1.WellFormed where
  owner_eq := h.owner_eq
  agree := h.agree
  initializes isStatic := by
    obtain ⟨m, hm, hinit⟩ := h.initializes isStatic
    have hlt := (List.getElem?_eq_some_iff.mp hm).1
    exact ⟨m, (List.getElem?_append_left hlt).trans hm, hinit.congr rfl rfl⟩
  isLocal i m hi hm := by
    have hm : (t.methods ++ _)[i]? = some m := hm
    -- A method added behind the others has no body yet.
    by_cases hlt : i < t.methods.length
    · rw [List.getElem?_append_left hlt] at hm
      exact h.isLocal i m hi hm
    · rw [List.getElem?_append_right (Nat.le_of_not_lt hlt)] at hm
      rw [List.mem_singleton.mp (List.mem_of_getElem? hm)]
      exact nofun

/-- A field that is changed where it stands keeps its anchor. -/
lemma wellFormed_setField {index : Nat} {f g : Field} (h : t.WellFormed)
    (hf : t.fields[index]? = some f) (hg : FieldChange.Keeps f g) (hagree : g.flags.Agree) :
    (t.setField index g).WellFormed where
  owner_eq k hk := by
    rcases List.mem_or_eq_of_mem_set hk with hk | rfl
    · exact h.owner_eq k hk
    · exact hg.owner_eq.trans (h.owner_eq f (List.mem_of_getElem? hf))
  agree k hk := by
    rcases List.mem_or_eq_of_mem_set hk with hk | rfl
    · exact h.agree k hk
    · exact hagree
  initializes isStatic := by
    have hfields : (t.setField index g).fields.map (fun f => (f.info, f.isStatic)) =
        t.fields.map fun f => (f.info, f.isStatic) := by
      have hget : (t.fields.map fun f => (f.info, f.isStatic))[index]? =
          some (f.info, f.isStatic) := by simp [hf]
      obtain ⟨hlt, heq⟩ := List.getElem?_eq_some_iff.mp hget
      have hstatic : g.isStatic = f.isStatic := hg.grows.isStatic_eq
      -- The anchors depend on provenance and staticness only, and these two are the same.
      show (t.fields.set index g).map _ = _
      rw [List.map_set, hg.info_eq, hstatic, ← heq, List.set_getElem_self hlt]
    have hid : (t.setField index g).id = t.id := rfl
    have hanchors := fieldAnchors_congr hid hfields isStatic
    obtain ⟨m, hm, hinit⟩ := h.initializes isStatic
    exact ⟨m, hm, hinit.congr rfl hanchors⟩
  isLocal := h.isLocal

/-- A method that is changed stays an initializer, or one that declares local variables. -/
lemma wellFormed_setMethod {index : Nat} {c : MethodChange} {m m' : Method} (h : t.WellFormed)
    (hm : t.methods[index]? = some m) (hc : c.Admitted index m) (hm' : c.run m = some m') :
    (t.setMethod index m').WellFormed where
  owner_eq := h.owner_eq
  agree := h.agree
  initializes isStatic := by
    have hkeeps := MethodChange.keeps_of_run hm'
    obtain ⟨k, hk, hinit⟩ := h.initializes isStatic
    -- What is changed is this initializer, in which case its body is kept, or another method.
    by_cases hindex : index = initializerIndex isStatic
    · rw [hindex, hk] at hm
      obtain rfl := Option.some.inj hm
      have hbody : c.entersBody = false := by
        have := initializerIndex_lt isStatic
        by_contra hne
        have := hc.1 (by simpa using hne)
        omega
      refine ⟨m', ?_, hkeeps.name_eq.trans hinit.name_eq, hkeeps.owner_eq.trans hinit.owner_eq,
        hkeeps.isStatic_eq.trans hinit.isStatic_eq, ?_⟩
      · show (t.methods.set index m')[_]? = _
        rw [hindex, List.getElem?_set_self (List.getElem?_eq_some_iff.mp hk).1]
      · rw [hkeeps.body_eq hbody]
        exact hinit.body_eq
    · exact ⟨k, (List.getElem?_set_ne hindex).trans hk, hinit.congr rfl rfl⟩
  isLocal i k hi hk a ha := by
    have hk : (t.methods.set index m')[i]? = some k := hk
    by_cases hindex : index = i
    · rw [hindex] at hm hc hk
      rw [List.getElem?_set_self (List.getElem?_eq_some_iff.mp hm).1] at hk
      obtain rfl := Option.some.inj hk
      -- An anchor was there before, or it is one of the new code, which is admitted for it.
      rcases (MethodChange.keeps_of_run hm').anchors_of a ha with ha | ha
      · exact MethodChange.isLocal_of_run hm' (h.isLocal i m hi hm a ha)
      · exact MethodChange.isLocal_of_run hm' (hc.2 a ha)
    · rw [List.getElem?_set_ne hindex] at hk
      exact h.isLocal i k hi hk a ha

end DeclaredType

/-- A change of a type that is admitted keeps it well-formed. -/
lemma TypeChange.wellFormed_of_run {c : TypeChange} {t t' : DeclaredType} (h : t.WellFormed)
    (hc : c.Admitted t) (ht : c.run t = some t') : t'.WellFormed := by
  cases c with
  | addField info name type isStatic d =>
    cases ht
    exact DeclaredType.wellFormed_insertField h rfl (Field.agree_new ..)
  | pushField f =>
    obtain ⟨r, hr, rfl⟩ := Option.map_eq_some_iff.mp ht
    unfold DeclaredType.pushField? at hr
    by_cases howner : f.val.owner = t.id
    · rw [if_pos howner] at hr
      cases hr
      exact DeclaredType.wellFormed_insertField h howner f.property.agree
    · rw [if_neg howner] at hr
      cases hr
  | addMethod info name isStatic returnType =>
    cases ht
    exact DeclaredType.wellFormed_addMethod h ..
  | setTags tags =>
    cases ht
    refine ⟨h.owner_eq, h.agree, fun isStatic => ?_, h.isLocal⟩
    obtain ⟨m, hm, hinit⟩ := h.initializes isStatic
    exact ⟨m, hm, hinit.congr rfl rfl⟩
  | field id c =>
    obtain ⟨f, hf, g, hg, rfl⟩ := run_field_eq_some_iff.mp ht
    obtain ⟨-, hf⟩ := DeclaredType.field?_eq_some_iff.mp hf
    exact DeclaredType.wellFormed_setField h hf (FieldChange.keeps_of_run hc hg)
      (FieldChange.agree_of_run (h.agree f (List.mem_of_getElem? hf)) hg)
  | method id c =>
    obtain ⟨m, hm, m', hm', rfl⟩ := run_method_eq_some_iff.mp ht
    obtain ⟨-, hget⟩ := DeclaredType.method?_eq_some_iff.mp hm
    exact DeclaredType.wellFormed_setMethod h hget (hc m hm) hm'

/-! ### Programs -/

namespace Construction

variable {c : Construction} {p p' : Program}

/-- A step of construction that is admitted keeps all types well-formed. -/
lemma wellFormed_of_run (h : ∀ t ∈ p.types, t.WellFormed) (hc : c.Admitted p)
    (hp : c.run p = some p') : ∀ t ∈ p'.types, t.WellFormed := by
  intro t ht
  cases c with
  | declareType info name kind enclosing =>
    cases hp
    rcases List.mem_append.mp ht with ht | ht
    · exact h t ht
    · rw [List.mem_singleton.mp ht]
      exact DeclaredType.wellFormed_new ..
  | change id c =>
    obtain ⟨k, hk, k', hk', rfl⟩ := run_change_eq_some_iff.mp hp
    rcases List.mem_or_eq_of_mem_set ht with ht | rfl
    · exact h t ht
    · exact TypeChange.wellFormed_of_run (h k (List.mem_of_getElem? hk)) (hc k hk) hk'

/-- A change leaves a program well-formed, whether it is refused or not. -/
lemma wellFormed_apply (h : ∀ t ∈ p.types, t.WellFormed) (hc : c.Admitted p) :
    ∀ t ∈ (c.apply p).types, t.WellFormed := by
  unfold apply
  cases hrun : c.run p with
  | none => exact h
  | some p' => exact wellFormed_of_run h hc hrun

/-- All types stay well-formed while a program is constructed, whether steps are refused or not. -/
lemma wellFormed_applyAll (changes : List Construction) :
    ∀ p : Program, (∀ t ∈ p.types, t.WellFormed) → AllAdmitted changes p →
      ∀ t ∈ (applyAll changes p).types, t.WellFormed := by
  induction changes with
  | nil =>
    intro p h _
    exact h
  | cons c rest ih =>
    intro p h hadmitted
    exact ih (c.apply p) (wellFormed_apply h hadmitted.1) hadmitted.2

end Construction

/-! ## The check -/

section Check

variable {t : DeclaredType}

/-- The anchors for the fields of a staticness stand for these fields, each one once. -/
lemma stmtsAnchors_fieldAnchors (isStatic : Bool) :
    stmtsAnchors (t.fieldAnchors isStatic) =
      (t.fields.zipIdx.filter fun x => x.1.isStatic = isStatic).map fun x =>
        ⟨x.1.info, .field ⟨t.id, x.2⟩⟩ := by
  unfold DeclaredType.fieldAnchors
  induction t.fields.zipIdx.filter fun x => decide (x.1.isStatic = isStatic) with
  | nil => rfl
  | cons x rest ih =>
    simp only [List.map_cons, stmtsAnchors, Stmt.anchors, ih, List.singleton_append]

/-- The anchors of an initializer stand for the type's fields of its staticness. -/
lemma mem_stmtsAnchors_fieldAnchors {isStatic : Bool} {a : Anchor}
    (ha : a ∈ stmtsAnchors (t.fieldAnchors isStatic)) :
    ∃ i f, t.fields[i]? = some f ∧ f.isStatic = isStatic ∧ a.slot = .field ⟨t.id, i⟩ := by
  rw [stmtsAnchors_fieldAnchors] at ha
  obtain ⟨⟨f, i⟩, hx, rfl⟩ := List.mem_map.mp ha
  obtain ⟨hget, hstatic⟩ := List.mem_filter.mp hx
  exact ⟨i, f, List.mem_zipIdx_iff_getElem?.mp hget, of_decide_eq_true hstatic, rfl⟩

/-- An element and its position occur once in a list. -/
lemma countP_zipIdx {α : Type} (q : α → Bool) (list : List α) (start index : Nat) :
    (list.zipIdx start).countP (fun x => q x.1 && x.2 = start + index) =
      if list[index]?.any q then 1 else 0 := by
  induction list generalizing start index with
  | nil => simp
  | cons x rest ih =>
    rw [List.zipIdx_cons, List.countP_cons]
    cases index with
    | zero =>
      -- The further elements have later positions.
      have hrest : (rest.zipIdx (start + 1)).countP (fun y => q y.1 && y.2 = start + 0) = 0 := by
        apply List.countP_eq_zero.mpr
        intro y hy
        have := List.le_snd_of_mem_zipIdx hy
        simp only [Bool.and_eq_true, decide_eq_true_eq, not_and]
        intro _
        omega
      rw [hrest]
      by_cases hq : q x = true
      · simp [hq]
      · simp [hq]
    -- In the rest the position is one less, counted from a start one later.
    | succ i =>
      have hne : ¬start = start + (i + 1) := by omega
      have hshift : start + (i + 1) = start + 1 + i := by omega
      simp only [hshift, ih (start + 1) i] at hne ⊢
      simp [hne]

/-- Among the anchors of an initializer, a field of its staticness has one, and any other none. -/
lemma countP_stmtsAnchors_fieldAnchors {f : Field} {index : Nat} (isStatic : Bool)
    (hf : t.fields[index]? = some f) :
    (stmtsAnchors (t.fieldAnchors isStatic)).countP (·.fieldIndex? = some index) =
      if f.isStatic = isStatic then 1 else 0 := by
  have hcount := countP_zipIdx (fun f : Field => f.isStatic = isStatic) t.fields 0 index
  rw [hf] at hcount
  rw [stmtsAnchors_fieldAnchors, List.countP_map, List.countP_filter]
  simpa [Function.comp_def, Anchor.fieldIndex?, Bool.and_comm] using hcount

namespace DeclaredType.WellFormed

/-- The methods of a well-formed type are the two initializers and those that declare no field. -/
lemma exists_methods (h : t.WellFormed) :
    ∃ m k rest, t.methods = m :: k :: rest ∧ m.Initializes t true ∧ k.Initializes t false ∧
      ∀ l ∈ rest, ∀ a ∈ l.anchors, a.IsLocal l := by
  obtain ⟨m, hm, hinit⟩ := h.initializes true
  obtain ⟨k, hk, hinit'⟩ := h.initializes false
  have hm : t.methods[0]? = some m := hm
  have hk : t.methods[1]? = some k := hk
  have hlocal := h.isLocal
  rcases hmethods : t.methods with _ | ⟨m', _ | ⟨k', rest⟩⟩
  · rw [hmethods] at hm
    cases hm
  · rw [hmethods] at hk
    cases hk
  · rw [hmethods] at hm hk hlocal
    cases hm
    cases hk
    refine ⟨m, k, rest, rfl, hinit, hinit', fun l hl => ?_⟩
    obtain ⟨i, hi⟩ := List.getElem?_of_mem hl
    exact hlocal (i + 2) l (by omega) hi

/-- Each field of a well-formed type has one anchor, in the initializer of its staticness. -/
lemma anchorCount_eq (h : t.WellFormed) {index : Nat} (hlt : index < t.fields.length) :
    t.anchorCount index = 1 := by
  obtain ⟨m, k, rest, hmethods, hm, hk, hrest⟩ := h.exists_methods
  obtain ⟨info, hbody⟩ := hm.body_eq
  obtain ⟨info', hbody'⟩ := hk.body_eq
  have hf := List.getElem?_eq_getElem hlt
  have hothers : (rest.flatMap Method.anchors).countP (·.fieldIndex? = some index) = 0 := by
    apply List.countP_eq_zero.mpr
    intro a ha
    obtain ⟨l, hl, ha⟩ := List.mem_flatMap.mp ha
    obtain ⟨i, hslot, -⟩ := hrest l hl a ha
    simp [Anchor.fieldIndex?, hslot]
  unfold anchorCount anchors
  rw [hmethods, List.flatMap_cons, List.flatMap_cons, List.countP_append, List.countP_append,
    hothers, Method.anchors_of_body hbody, Method.anchors_of_body hbody',
    countP_stmtsAnchors_fieldAnchors true hf, countP_stmtsAnchors_fieldAnchors false hf]
  cases t.fields[index].isStatic <;> rfl

/-- The anchors in an initializer of a type fit it. -/
lemma fits_of_initializes {m : Method} {isStatic : Bool} (hm : m.Initializes t isStatic) :
    ∀ a ∈ m.anchors, a.Fits t m := by
  intro a ha
  obtain ⟨info, hbody⟩ := hm.body_eq
  rw [Method.anchors_of_body hbody] at ha
  obtain ⟨i, f, hf, hstatic, hslot⟩ := mem_stmtsAnchors_fieldAnchors ha
  have hname : m.name = staticInitializerName ∨ m.name = instanceInitializerName := by
    rw [hm.name_eq]
    cases isStatic with
    | true => exact .inl rfl
    | false => exact .inr rfl
  unfold Anchor.Fits
  rw [hslot]
  exact ⟨hm.owner_eq.symm, hname, f, hf, hm.isStatic_eq.trans hstatic.symm⟩

/-- Each anchor of a well-formed type fits, also in a method with the name of an initializer. -/
lemma fits (h : t.WellFormed) : ∀ m ∈ t.methods, ∀ a ∈ m.anchors, a.Fits t m := by
  obtain ⟨m, k, rest, hmethods, hm, hk, hrest⟩ := h.exists_methods
  rw [hmethods]
  intro l hl a ha
  rcases List.mem_cons.mp hl with rfl | hl
  · exact fits_of_initializes hm a ha
  rcases List.mem_cons.mp hl with rfl | hl
  · exact fits_of_initializes hk a ha
  · obtain ⟨i, hslot, hi⟩ := hrest l hl a ha
    unfold Anchor.Fits
    rw [hslot]
    exact hi

/-- The one fault that a well-formed type can have is a capture that is static. -/
lemma firstFault?_eq_none_iff (h : t.WellFormed) :
    t.firstFault? = none ↔ ∀ f ∈ t.fields, ¬(f.isStatic = true ∧ f.isCapture = true) := by
  rw [DeclaredType.firstFault?_eq_none_iff]
  constructor
  · rintro ⟨hlegal, -, -⟩ f hf ⟨hstatic, hcapture⟩
    have hinstance := ((hlegal f hf).final_of_capture hcapture).2
    rw [hstatic] at hinstance
    cases hinstance
  · intro hcaptures
    refine ⟨fun f hf => ?_, h.fits, fun i hi => h.anchorCount_eq hi⟩
    have hagree := h.agree f hf
    refine ⟨hagree.not_final_and_volatile, hagree.final_of_constant, fun hcapture => ?_,
      h.owner_eq f hf⟩
    refine ⟨hagree.final_of_capture hcapture, ?_⟩
    by_contra hne
    exact hcaptures f hf ⟨by simpa using hne, hcapture⟩

end DeclaredType.WellFormed
end Check

/-- A program that is constructed by changes which overwrite no field, and bring no code into the
first two methods of a type and none that declares fields into the others, is well-formed.  In each
type the body of the first method consists of the anchors of the static fields by position, and that
of the second of those of the instance fields.  The program passes the check unless some field is
both static and a capture. -/
theorem Construction.verify_applyAll (changes : List Construction)
    (h : AllAdmitted changes .empty) :
    (∀ t ∈ (applyAll changes .empty).types, ∀ isStatic, ∃ m info,
      t.methods[initializerIndex isStatic]? = some m ∧
        m.body = some ⟨info, t.fieldAnchors isStatic⟩) ∧
    ((applyAll changes .empty).verify = .ok () ↔
      ∀ t ∈ (applyAll changes .empty).types, ∀ f ∈ t.fields,
        ¬(f.isStatic = true ∧ f.isCapture = true)) := by
  have hwell := wellFormed_applyAll changes .empty nofun h
  constructor
  · intro t ht isStatic
    obtain ⟨m, hm, hinit⟩ := (hwell t ht).initializes isStatic
    obtain ⟨info, hbody⟩ := hinit.body_eq
    exact ⟨m, info, hm, hbody⟩
  · rw [Program.verify_eq_ok]
    exact forall₂_congr fun t ht => (hwell t ht).firstFault?_eq_none_iff

/-- The construction of a class with a static capture and an instance field, and with a method that
has the name of an initializer and declares a local variable twice. -/
def Construction.secondInitializer : List Construction :=
  let code : List Stmt := [.declare .synthetic (.localVar 0)]
  [.declareType .synthetic "C" .classType none,
   .change 0 (.addField .synthetic (.ofChar 'c') (.primitive .int) true .capture),
   .change 0 (.addField .synthetic (.ofChar 'v') (.primitive .int) false .volatile),
   .change 0 (.field ⟨0, 1⟩ .setFinal),
   .change 0 (.addMethod .synthetic "$init" false (.primitive .void)),
   .change 0 (.method ⟨0, 2⟩
     (.addLocal ⟨.synthetic, .ofChar 'x', .primitive .int, false, none⟩)),
   .change 0 (.method ⟨0, 2⟩ (.setBody ⟨.synthetic, code⟩)),
   .change 0 (.method ⟨0, 2⟩ (.extendBody code))]

/-- The initializers of the class are its fields' anchors, and the check fails for the capture. -/
theorem verify_secondInitializer :
    Construction.AllAdmitted Construction.secondInitializer .empty ∧
      (Construction.applyAll Construction.secondInitializer .empty).verify ≠ .ok () ∧
      ∃ t ∈ (Construction.applyAll Construction.secondInitializer .empty).types,
        t.fields.length = 2 ∧ t.methods.length = 3 ∧ ∀ isStatic, ∃ m info,
          t.methods[initializerIndex isStatic]? = some m ∧
            m.body = some ⟨info, t.fieldAnchors isStatic⟩ := by
  -- Both changes of the code anchor the local variable that the operation before them added.
  have hcode {m : Method} (hm : 0 < m.locals.length) :
      ∀ a ∈ stmtsAnchors [.declare .synthetic (.localVar 0)], a.IsLocal m := by
    intro a ha
    rw [List.mem_singleton.mp ha]
    exact ⟨0, rfl, hm⟩
  have hadmitted : Construction.AllAdmitted Construction.secondInitializer .empty := by
    refine ⟨trivial, fun _ _ => trivial, fun _ _ => trivial, fun _ _ => rfl, fun _ _ => trivial,
      fun _ _ _ _ => ⟨nofun, nofun⟩, ?_, ?_, trivial⟩
    · intro t ht m hm
      cases ht
      cases hm
      exact ⟨fun _ => by decide, hcode (by decide)⟩
    · intro t ht m hm
      cases ht
      cases hm
      exact ⟨fun _ => by decide, hcode (by decide)⟩
  obtain ⟨hbodies, hverify⟩ := Construction.verify_applyAll _ hadmitted
  refine ⟨hadmitted, fun h => ?_, _, List.mem_cons_self, rfl, rfl, hbodies _ List.mem_cons_self⟩
  exact hverify.mp h _ List.mem_cons_self _ List.mem_cons_self ⟨rfl, rfl⟩

end DeclIR
