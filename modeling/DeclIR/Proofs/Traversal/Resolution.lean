import DeclIR.Proofs.Traversal.Rewriting

/-!
# Two ways to look up a field

A declared type looks a field up by the type that the handle names.  A walk looks it up by the
type that the method around the anchor says it belongs to.  The two agree where methods say that
they belong to the type that has them (`Visitor.Rewrites.walkType_looks_up`).  A method that says
something else makes the walk come to fields of its own type under the handles of another one
(`walkType_passes_anchorsForeign`).
-/

namespace DeclIR

open Visit

lemma findSome?_congr {α β : Type} {f g : α → Option β} {list : List α}
    (h : ∀ x ∈ list, f x = g x) : list.findSome? f = list.findSome? g := by
  induction list with
  | nil => rfl
  | cons x rest ih =>
    rw [List.findSome?_cons, List.findSome?_cons, h x List.mem_cons_self,
      ih fun y hy => h y (List.mem_cons_of_mem x hy)]

namespace DeclaredType

/-- The variable that a slot names in a method of a type, if fields are looked up by the type. -/
def lookUp? (t : DeclaredType) (m : Method) : VarSlot → Option Declared
  | .field id => (t.field? id).map .field
  | .localVar i => m.locals[i]?.map .localVar

/-- The first anchor of a type that names no variable, if fields are looked up by the type. -/
def strayAnchor? (t : DeclaredType) : Option Anchor :=
  t.methods.findSome? fun m => m.anchors.find? fun a => (t.lookUp? m a.slot).isNone

variable {t : DeclaredType} {m : Method}

/-- The two ways agree if the method says that it belongs to the type, and otherwise only in a type
without fields. -/
lemma resolve?_eq_lookUp?_iff :
    Scope.resolve? ⟨m.owner, t.fields, m.locals⟩ = t.lookUp? m ↔
      m.owner = t.id ∨ t.fields = [] := by
  constructor
  · intro h
    by_contra hne
    obtain ⟨howner, hfields⟩ := not_or.mp hne
    -- The method's own handle of the first field tells the two ways apart.
    have hfirst := congrFun h (.field ⟨m.owner, 0⟩)
    rw [Scope.resolve?, lookUp?, field?, if_pos rfl, if_neg howner, Option.map_none,
      Option.map_eq_none_iff, List.getElem?_eq_none_iff] at hfirst
    exact hfields (List.eq_nil_of_length_eq_zero (Nat.le_zero.mp hfirst))
  · intro h
    funext slot
    cases slot with
    | localVar i => rfl
    | field id =>
      rw [Scope.resolve?, lookUp?, field?]
      rcases h with howner | hfields
      · rw [howner]
        split <;> rfl
      · simp [hfields]

/-- Where the two ways agree, the anchors that do not resolve are those that name no variable. -/
lemma dangling?_eq_strayAnchor? (h : ∀ m ∈ t.methods, m.owner = t.id ∨ t.fields = []) :
    t.dangling? = t.strayAnchor?.map fun a => .danglingSlot a.slot a.info := by
  have hmethod (m : Method) (hm : m ∈ t.methods) : m.dangling? t.fields =
      (m.anchors.find? fun a => (t.lookUp? m a.slot).isNone).map
        fun a => .danglingSlot a.slot a.info := by
    have hanchor (a : Anchor) : Scope.dangling? ⟨m.owner, t.fields, m.locals⟩ a =
        (Option.guard (fun a => (t.lookUp? m a.slot).isNone) a).map
          fun a => .danglingSlot a.slot a.info := by
      rw [Scope.dangling?, resolve?_eq_lookUp?_iff.mpr (h m hm), Option.guard]
      cases t.lookUp? m a.slot <;> rfl
    rw [Method.dangling?, funext hanchor, List.find?_eq_findSome?_guard, List.map_findSome?]
    rfl
  rw [dangling?, strayAnchor?, List.map_findSome?]
  exact findSome?_congr hmethod

end DeclaredType

/-- The anchors of a method stand for the variables that the type looks up just if the method says
that it belongs to the type, or the type has no fields.  Where all methods do so, the walk fails at
the first anchor that names no variable of the type, with the slot and the provenance of the anchor,
and succeeds if there is none. -/
theorem Visitor.Rewrites.walkType_looks_up {σ : Type} {v : Visitor σ} {r : Rewriter σ}
    (hv : v.Rewrites r) (t : DeclaredType) :
    (∀ m ∈ t.methods, Scope.resolve? ⟨m.owner, t.fields, m.locals⟩ = t.lookUp? m ↔
      m.owner = t.id ∨ t.fields = []) ∧
    ((∀ m ∈ t.methods, m.owner = t.id ∨ t.fields = []) → ∀ (c : Context) (own : σ),
      match t.strayAnchor? with
      | some a => ∃ s, v.walkType ⟨t, c, own⟩ = .error (.danglingSlot a.slot a.info) s
      | none => ∃ s, v.walkType ⟨t, c, own⟩ = .ok () s) := by
  refine ⟨fun m _ => DeclaredType.resolve?_eq_lookUp?_iff, ?_⟩
  intro h c own
  have hwalk := hv.walkType t c own
  rw [DeclaredType.dangling?_eq_strayAnchor? h] at hwalk
  cases ha : t.strayAnchor? with
  | some a =>
    rw [ha] at hwalk
    exact hwalk
  | none =>
    rw [ha] at hwalk
    obtain ⟨offered, hs, -⟩ := hwalk
    exact ⟨_, hs⟩

/-- A visitor without hooks replaces nothing. -/
theorem Visitor.rewrites_nothing :
    ({} : Visitor Unit).Rewrites { replacement? := fun _ => none } := by
  have h : ({} : Visitor Unit) = Rewriter.visitor { replacement? := fun _ => none } := rfl
  rw [h]
  exact Rewriter.visitor_rewrites _

/-- A class with a field, and with a method that has an anchor of a field of another type.  The
method says that it belongs to `owner`. -/
def DeclaredType.anchorsForeign (owner : TypeId) : DeclaredType :=
  let t := (DeclaredType.new .synthetic 0 "C" .classType none).insertField
    (Field.new .synthetic (.ofChar 'x') 0 (.primitive .int) true .plain)
  let run : Method :=
    { DeclaredType.emptyInitializer .synthetic owner true with
      name := "run"
      body := some ⟨.synthetic, [.declare .synthetic (.field ⟨1, 0⟩)]⟩ }
  { t with methods := t.methods ++ [run] }

/-- If all methods of that class say that they belong to it, the walk fails at the anchor. -/
theorem walkType_refuses_anchorsForeign :
    (∀ m ∈ (DeclaredType.anchorsForeign 0).methods, m.owner = (DeclaredType.anchorsForeign 0).id ∨
      (DeclaredType.anchorsForeign 0).fields = []) ∧
    ∃ s, ({} : Visitor Unit).walkType ⟨.anchorsForeign 0, {}, ()⟩ =
      .error (.danglingSlot (.field ⟨1, 0⟩) .synthetic) s := by
  have howner : ∀ m ∈ (DeclaredType.anchorsForeign 0).methods,
      m.owner = (DeclaredType.anchorsForeign 0).id ∨
        (DeclaredType.anchorsForeign 0).fields = [] := by
    intro m hm
    left
    rcases List.mem_cons.mp hm with rfl | hm
    · rfl
    rcases List.mem_cons.mp hm with rfl | hm
    · rfl
    rw [List.mem_singleton.mp hm]
    rfl
  exact ⟨howner,
    (Visitor.rewrites_nothing.walkType_looks_up (.anchorsForeign 0)).2 howner {} ()⟩

/-- If the method says that it belongs to the other type, the walk takes the field of the class for
the one that the anchor names. -/
theorem walkType_passes_anchorsForeign :
    ¬∀ (t : DeclaredType) (info : Provenance) (id : FieldId),
      (∃ m ∈ t.methods, ⟨info, .field id⟩ ∈ m.anchors) → t.field? id = none →
        ∃ f s, ({} : Visitor Unit).walkType ⟨t, {}, ()⟩ = .error f s := by
  intro h
  obtain ⟨f, s, hs⟩ := h (.anchorsForeign 1) .synthetic ⟨1, 0⟩
    ⟨_, List.mem_append_right _ List.mem_cons_self, List.mem_cons_self⟩ rfl
  have hwalk := Visitor.rewrites_nothing.walkType (.anchorsForeign 1) {} ()
  have hresolves : (DeclaredType.anchorsForeign 1).dangling? = none := by decide +kernel
  rw [hresolves] at hwalk
  obtain ⟨offered, hwalk, -⟩ := hwalk
  rw [hwalk] at hs
  cases hs

end DeclIR
