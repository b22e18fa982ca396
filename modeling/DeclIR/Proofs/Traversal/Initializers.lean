import DeclIR.Proofs.Consistency.Placement
import DeclIR.Proofs.Traversal.Protocol

/-!
# Where initializers are visited

A visitor that accepts every node is called for all nodes of a program (`DeclaredType.listing`).  In
a program that passes the check it is called for each field's anchor once, and the field's
initializer is visited there and nowhere else.

Equal expressions can stand in several places, so "nowhere else" is not said by counting them.  It
is said by exchanging the field's declaration statement: all calls stay the same except those inside
of the one anchor (`Places`, `Method.InitializesOnce`).
-/

namespace DeclIR

/-! ## Another declaration statement -/

/-- The index of the field whose anchor a node is. -/
def Node.anchored? : Node → Option Nat
  | declaration (.field id) _ _ => some id.index
  | _ => none

/-- Whether a call is the one in this phase for an anchor of the field at an index. -/
def Call.declares (phase : Phase) (index : Nat) (call : Call) : Bool :=
  call.phase = phase && call.node.anchored? = some index

/-- The field with another declaration statement, or with none. -/
def Field.redeclare (d? : Option Declaration) (f : Field) : Field := { f with declaration := d? }

/-- The type with another declaration statement for the field at an index, or with none. -/
def DeclaredType.redeclare (index : Nat) (d? : Option Declaration) (t : DeclaredType) :
    DeclaredType :=
  { t with fields := t.fields.modify index (Field.redeclare d?) }

/-- The calls for an anchor of a field: those for the initializer, if one is attached, stand between
the two for the anchor. -/
def Field.anchorListing (s : Surroundings) (id : FieldId) (info : Provenance) (f : Field) :
    List Call :=
  let x := Node.declaration (.field id) info (.field f)
  let inner := f.initializer?.toList.flatMap fun e => e.tree.listing (s.inside x)
  s.call .pre x .statement :: inner ++ [s.call .post x .statement]

/-- Whatever declaration statement the field at an index has, a type's calls go through the method,
and the method's calls through one anchor of the field.  The calls outside of the anchor are always
the same ones. -/
def Method.InitializesOnce (m : Method) (t : DeclaredType) (index : Nat) (f : Field) : Prop :=
  ∃ (outerBefore outerAfter : List Glimpse) (before after : List Call) (s : Surroundings)
    (id : FieldId) (info : Provenance), id.index = index ∧
    ∀ d? : Option Declaration,
      let other := t.redeclare index d?
      let calls := (m.tree other.fields).listing t.inside
      other.listing.map Call.glimpse =
        outerBefore ++ calls.map Call.glimpse ++ outerAfter ∧
      calls = before ++ (f.redeclare d?).anchorListing s id info ++ after

/-! ## The places of an initializer -/

/-- These calls contain the ones for an anchor of the field `f` at `index` in `n` places, and the
others do not depend on the field's declaration statement. -/
inductive Places (f : Field) (index : Nat) : Nat → (Option Declaration → List Call) → Prop
  | fixed {calls : List Call} (h : ∀ c ∈ calls, c.node.anchored? ≠ some index) :
      Places f index 0 fun _ => calls
  | anchor (s : Surroundings) {id : FieldId} (info : Provenance) (h : id.index = index) :
      Places f index 1 fun d? => (f.redeclare d?).anchorListing s id info
  | append {n k : Nat} {a b : Option Declaration → List Call} (ha : Places f index n a)
      (hb : Places f index k b) : Places f index (n + k) fun d? => a d? ++ b d?

namespace Places

variable {f : Field} {index n : Nat} {calls : Option Declaration → List Call}

/-- The count and the calls may be named otherwise where they are equal. -/
lemma of_eq {k : Nat} {other : Option Declaration → List Call} (h : Places f index n calls)
    (hcount : n = k) (hcalls : ∀ d?, calls d? = other d?) : Places f index k other := by
  rw [← hcount, ← funext hcalls]
  exact h

/-- Calls without a place for it do not depend on the declaration statement. -/
lemma eq_fixed (h : Places f index n calls) (hn : n = 0) :
    ∃ list : List Call, (∀ c ∈ list, c.node.anchored? ≠ some index) ∧ ∀ d?, calls d? = list := by
  induction h with
  | @fixed list hlist => exact ⟨list, hlist, fun _ => rfl⟩
  | anchor => omega
  | append _ _ iha ihb =>
    obtain ⟨a, ha, haeq⟩ := iha (by omega)
    obtain ⟨b, hb, hbeq⟩ := ihb (by omega)
    refine ⟨a ++ b, ?_, fun d? => by simp [haeq, hbeq]⟩
    intro c hc
    rcases List.mem_append.mp hc with hc | hc
    · exact ha c hc
    · exact hb c hc

/-- Where nothing is placed, no call is about the field's anchor. -/
lemma free (h : Places f index n calls) (hn : n = 0) (d? : Option Declaration) :
    ∀ c ∈ calls d?, c.node.anchored? ≠ some index := by
  obtain ⟨list, hlist, heq⟩ := h.eq_fixed hn
  rw [heq]
  exact hlist

/-- Calls with one place for it are those before, those in this place, and those after. -/
lemma eq_append (h : Places f index n calls) (hn : n = 1) :
    ∃ before after : List Call,
      (∀ c ∈ before ++ after, c.node.anchored? ≠ some index) ∧
      ∃ (s : Surroundings) (id : FieldId) (info : Provenance), id.index = index ∧
        ∀ d?, calls d? = before ++ (f.redeclare d?).anchorListing s id info ++ after := by
  induction h with
  | fixed => omega
  | @anchor s id info hid =>
    exact ⟨[], [], by simp, s, id, info, hid, fun _ => by simp⟩
  | @append k l a b ha hb iha ihb =>
    -- The one place is in the first half of the calls or in the second one.
    rcases (by omega : k = 1 ∧ l = 0 ∨ k = 0 ∧ l = 1) with ⟨hk, hl⟩ | ⟨hk, hl⟩
    · obtain ⟨before, after, hfree, s, id, info, hid, heq⟩ := iha hk
      obtain ⟨list, hlist, hbeq⟩ := hb.eq_fixed hl
      refine ⟨before, after ++ list, ?_, s, id, info, hid, fun d? => by simp [heq, hbeq]⟩
      intro c hc
      rw [← List.append_assoc] at hc
      rcases List.mem_append.mp hc with hc | hc
      · exact hfree c hc
      · exact hlist c hc
    · obtain ⟨list, hlist, haeq⟩ := ha.eq_fixed hk
      obtain ⟨before, after, hfree, s, id, info, hid, heq⟩ := ihb hl
      refine ⟨list ++ before, after, ?_, s, id, info, hid, fun d? => by simp [heq, haeq]⟩
      intro c hc
      rw [List.append_assoc] at hc
      rcases List.mem_append.mp hc with hc | hc
      · exact hlist c hc
      · exact hfree c hc

/-- A node that is no anchor of the field has the places of its parts. -/
lemma node {s : Surroundings} {x : Node} {slot : Slot} {parts : Option Declaration → List Tree}
    (hx : x.anchored? ≠ some index)
    (h : Places f index n fun d? => forestListing (s.inside x) (parts d?)) :
    Places f index n fun d? => (Tree.node x slot (parts d?)).listing s := by
  have hcall (phase : Phase) : Places f index 0 fun _ => [s.call phase x slot] := by
    apply fixed
    intro c hc
    rw [List.mem_singleton.mp hc]
    exact hx
  exact ((hcall .pre).append (h.append (hcall .post))).of_eq (by omega) fun d? => by
    simp [Tree.listing]

lemma nil (s : Surroundings) : Places f index 0 fun _ => forestListing s [] :=
  fixed (by simp [forestListing])

/-- A forest of one tree places what the tree does. -/
lemma single {s : Surroundings} {tree : Option Declaration → Tree}
    (h : Places f index n fun d? => (tree d?).listing s) :
    Places f index n fun d? => forestListing s [tree d?] :=
  h.of_eq rfl fun d? => by simp [forestListing]

/-- The places in some trees and in those after them. -/
lemma forest {k : Nat} {s : Surroundings} {a b : Option Declaration → List Tree}
    (ha : Places f index n fun d? => forestListing s (a d?))
    (hb : Places f index k fun d? => forestListing s (b d?)) :
    Places f index (n + k) fun d? => forestListing s (a d? ++ b d?) :=
  (ha.append hb).of_eq rfl fun d? => (forestListing_append s (a d?) (b d?)).symm

/-! ### Expressions and statements -/

/-- An expression has no anchors, so its calls do not depend on the field's declaration. -/
lemma expr (e : Expr) : ∀ s : Surroundings, Places f index 0 fun _ => e.tree.listing s := by
  have hnode (x : Expr) : (Node.expr x).anchored? ≠ some index := nofun
  induction e with
  | instanceField i g r ih =>
    intro s
    exact node (hnode _) (ih _).single
  | binary i op l r ihl ihr =>
    intro s
    exact node (hnode _) ((ihl _).single.forest (ihr _).single)
  | _ =>
    intro s
    exact node (hnode _) (nil _)

/-- A declaration's own calls do not depend on the field's declaration. -/
lemma initializer (d : Declared) (s : Surroundings) :
    Places f index 0 fun _ => forestListing s d.trees := by
  unfold Declared.trees
  cases d.base.initializer? with
  | none => exact nil s
  | some e => exact (expr e s).single

end Places

lemma Field.listing_anchorTree (s : Surroundings) (id : FieldId) (info : Provenance) (f : Field) :
    (Declared.anchorTree (.field id) info (.field f)).listing s = f.anchorListing s id info := by
  unfold Declared.anchorTree Declared.trees Field.anchorListing
  rw [Tree.listing, forestListing_map]
  rfl

/-- The variables in reach, with another declaration statement for the field at an index. -/
def Scope.redeclare (index : Nat) (d? : Option Declaration) (s : Scope) : Scope :=
  { s with fields := s.fields.modify index (Field.redeclare d?) }

section Scope

variable {f : Field} {index : Nat} {scope : Scope} {a : Anchor}

/-- A redeclared field is seen only through anchors of its own index. -/
lemma Scope.resolve?_redeclare_of_ne (d? : Option Declaration) (ha : a.fieldIndex? ≠ some index) :
    (scope.redeclare index d?).resolve? a.slot = scope.resolve? a.slot := by
  obtain ⟨info, slot⟩ := a
  cases slot with
  | localVar i => rfl
  | field id =>
    have hid : index ≠ id.index := fun h => ha (congrArg some h.symm)
    simp [resolve?, redeclare, hid]

/-- An anchor of the field resolves to its redeclared form, whatever the declaration. -/
lemma Scope.resolve?_redeclare (d? : Option Declaration) (hf : scope.fields[index]? = some f)
    (ha : a.fieldIndex? = some index) (h : (scope.resolve? a.slot).isSome) :
    ∃ id : FieldId, id.index = index ∧ a.slot = .field id ∧
      (scope.redeclare index d?).resolve? a.slot = some (.field (f.redeclare d?)) := by
  obtain ⟨info, slot⟩ := a
  cases slot with
  | localVar i => cases ha
  | field id =>
    obtain ⟨d, hd⟩ := Option.isSome_iff_exists.mp h
    obtain ⟨howner, -⟩ := Scope.resolve?_field_eq_some_iff.mp hd
    have hid : id.index = index := Option.some.inj ha
    exact ⟨id, hid, rfl, by simp [resolve?, redeclare, howner, hid, hf]⟩

end Scope

namespace Places

variable {f : Field} {index : Nat} {scope : Scope}

/-- An anchor is a place for the declaration statement just when it stands for the field. -/
lemma anchorStmt (hf : scope.fields[index]? = some f) (s : Surroundings) {a : Anchor}
    (h : (scope.resolve? a.slot).isSome) :
    Places f index (anchorsOf index [a]) fun d? => forestListing s <|
      ((scope.redeclare index d?).resolve? a.slot).toList.map
        (Declared.anchorTree a.slot a.info) := by
  -- The slot of any other anchor resolves as if the declaration had not changed.
  by_cases ha : a.fieldIndex? = some index
  · obtain ⟨id, hid, hslot, -⟩ := Scope.resolve?_redeclare none hf ha h
    apply (anchor s a.info hid).of_eq
    · simp [anchorsOf, ha]
    · intro d?
      obtain ⟨-, -, -, hd⟩ := Scope.resolve?_redeclare d? hf ha h
      rw [hd, hslot]
      simp [forestListing, Field.listing_anchorTree]
  · obtain ⟨d, hd⟩ := Option.isSome_iff_exists.mp h
    have hnode : (Node.declaration a.slot a.info d).anchored? ≠ some index := by
      obtain ⟨info, slot⟩ := a
      cases slot with
      | localVar i => nofun
      | field id => exact ha
    apply (node hnode (initializer d _)).single.of_eq
    · simp [anchorsOf, ha]
    · intro d?
      rw [Scope.resolve?_redeclare_of_ne d? ha, hd]
      rfl

mutual

/-- The calls of a statement place the field's declaration once at each of its anchors of that
field. -/
lemma stmt (hf : scope.fields[index]? = some f) (s : Surroundings) : ∀ x : Stmt,
    (∀ a ∈ x.anchors, (scope.resolve? a.slot).isSome) →
    Places f index (anchorsOf index x.anchors) fun d? =>
      forestListing s (x.trees (scope.redeclare index d?))
  | .declare info slot, h => anchorStmt hf s (h ⟨info, slot⟩ (by simp [Stmt.anchors]))
  | .eval i e, _ => (node (by nofun) (expr e _).single).single
  | .ret i (some e), _ => (node (by nofun) (expr e _).single).single
  | .ret i none, _ => (node (by nofun) (nil _)).single
  | .branch i cond onTrue onFalse, h => by
    rw [Stmt.anchors] at h
    have htrue := block hf (s.inside (.stmt (.branch i cond onTrue onFalse))) .fixed onTrue
      fun a ha => h a (List.mem_append_left _ ha)
    have hfalse := alternative hf (s.inside (.stmt (.branch i cond onTrue onFalse))) onFalse
      fun a ha => h a (List.mem_append_right _ ha)
    have hparts := (expr cond _).single.forest (htrue.forest hfalse)
    exact (node (by nofun) hparts).single.of_eq (by simp [Stmt.anchors, anchorsOf_append])
      fun _ => rfl
  | .block b, h => block hf s .statement b (by rwa [Stmt.anchors] at h)

/-- The calls of a block place the field's declaration as those of its statements do. -/
lemma block (hf : scope.fields[index]? = some f) (s : Surroundings) (slot : Slot) :
    ∀ b : BlockOf Stmt, (∀ a ∈ Block.anchors b, (scope.resolve? a.slot).isSome) →
    Places f index (anchorsOf index (Block.anchors b)) fun d? =>
      forestListing s [Block.tree (scope.redeclare index d?) slot b]
  | ⟨info, list⟩, h => (node (by nofun) (stmts hf _ list (by rwa [Block.anchors] at h))).single

/-- The calls of an alternative place the declaration where there is one. -/
lemma alternative (hf : scope.fields[index]? = some f) (s : Surroundings) :
    ∀ b : Option (BlockOf Stmt), (∀ a ∈ elseAnchors b, (scope.resolve? a.slot).isSome) →
    Places f index (anchorsOf index (elseAnchors b)) fun d? =>
      forestListing s (elseTrees (scope.redeclare index d?) b)
  | none, _ => nil s
  | some b, h => block hf s .fixed b (by rwa [elseAnchors] at h)

/-- The calls of a statement list place the declaration as its statements do, one after the other.
-/
lemma stmts (hf : scope.fields[index]? = some f) (s : Surroundings) : ∀ list : List Stmt,
    (∀ a ∈ stmtsAnchors list, (scope.resolve? a.slot).isSome) →
    Places f index (anchorsOf index (stmtsAnchors list)) fun d? =>
      forestListing s (stmtsTrees (scope.redeclare index d?) list)
  | [], _ => nil s
  | x :: rest, h => by
    rw [stmtsAnchors] at h
    have hx := stmt hf s x fun a ha => h a (List.mem_append_left _ ha)
    have hrest := stmts hf s rest fun a ha => h a (List.mem_append_right _ ha)
    exact (hx.forest hrest).of_eq (anchorsOf_append index _ _).symm fun _ => rfl

end

/-! ### Declarations -/

/-- Annotations and parameters are no anchors. -/
lemma leaves {α : Type} {x : α → Node} (hx : ∀ a, (x a).anchored? = none) (list : List α)
    (s : Surroundings) :
    Places f index 0 fun _ => forestListing s (list.map fun a => .node (x a) .fixed []) := by
  induction list with
  | nil => exact nil s
  | cons a rest ih =>
    have ha : (x a).anchored? ≠ some index := by simp [hx a]
    exact (node ha (nil _)).single.forest ih

lemma tags (list : List Tag) (s : Surroundings) :
    Places f index 0 fun _ => forestListing s (list.map Tag.tree) :=
  leaves (x := .tag) (fun _ => rfl) list s

/-- Fields are no anchors, and their initializers are none of their parts. -/
lemma fields (list : List Field) (s : Surroundings) :
    Places f index 0 fun _ => forestListing s (list.map Field.tree) := by
  induction list with
  | nil => exact nil s
  | cons g rest ih => exact (node (by nofun) (tags g.tags _)).single.forest ih

variable {t : DeclaredType}

/-- The calls of a body place the declaration at its anchors of the field. -/
lemma body (hf : t.fields[index]? = some f) (s : Surroundings) {m : Method}
    (h : ∀ a ∈ m.anchors, ((m.scope t.fields).resolve? a.slot).isSome) :
    Places f index (anchorsOf index m.anchors) fun d? => forestListing s <|
      m.body.toList.map (Block.tree (m.scope (t.redeclare index d?).fields) .fixed) := by
  unfold Method.anchors at h ⊢
  cases hb : m.body with
  | none => exact nil s
  | some b =>
    rw [hb] at h
    have hscope : (m.scope t.fields).fields[index]? = some f := hf
    exact block hscope s .fixed b h

/-- The calls of a method place the declaration at the anchors of its body, in the method's own
scope. -/
lemma method (hf : t.fields[index]? = some f) (s : Surroundings) {m : Method}
    (h : ∀ a ∈ m.anchors, ((m.scope t.fields).resolve? a.slot).isSome) :
    Places f index (anchorsOf index m.anchors) fun d? =>
      (m.tree (t.redeclare index d?).fields).listing s := by
  have hparameters (s : Surroundings) : Places f index 0 fun _ =>
      forestListing s (m.parameters.map Variable.parameterTree) :=
    leaves (x := .parameter) (fun _ => rfl) m.parameters s
  have hparts := ((tags m.tags _).forest (hparameters _)).forest (body hf (s.inside (.method m)) h)
  exact (node (by nofun) hparts).of_eq (by omega) fun _ => rfl

/-- The calls of the methods place the declaration at all of their anchors of the field. -/
lemma methods (hf : t.fields[index]? = some f) (s : Surroundings) (list : List Method)
    (h : ∀ m ∈ list, ∀ a ∈ m.anchors, ((m.scope t.fields).resolve? a.slot).isSome) :
    Places f index (anchorsOf index (list.flatMap Method.anchors)) fun d? =>
      forestListing s (list.map (Method.tree (t.redeclare index d?).fields)) := by
  induction list with
  | nil => exact nil s
  | cons m rest ih =>
    have hm := (method hf s (h m List.mem_cons_self)).single
    have hrest := ih fun k hk => h k (List.mem_cons_of_mem m hk)
    exact (hm.forest hrest).of_eq (by simp [anchorsOf]) fun _ => rfl

end Places

/-! ## The one anchor of a field -/

/-- An anchor that fits its type and method resolves in the scope of the walk. -/
lemma Anchor.Fits.isSome_resolve? {a : Anchor} {t : DeclaredType} {m : Method} (h : a.Fits t m) :
    ((m.scope t.fields).resolve? a.slot).isSome := by
  obtain ⟨info, slot⟩ := a
  cases slot with
  | localVar i => simp [Scope.resolve?, Method.scope, List.getElem?_eq_getElem h]
  | field id =>
    obtain ⟨howner, -, f, hf, -⟩ := h
    simp [Scope.resolve?, Method.scope, howner, hf]

namespace DeclaredType

variable {t : DeclaredType} {index : Nat} {f : Field}

/-- The calls for a type's fields are told alike, whatever declaration statements they have. -/
lemma glimpses_fields (d? : Option Declaration) (s : Surroundings) :
    (forestListing s ((t.redeclare index d?).fields.map Field.tree)).map Call.glimpse =
      (forestListing s (t.fields.map Field.tree)).map Call.glimpse := by
  have hfield (g : Field) : ((g.redeclare d?).tree.listing s).map Call.glimpse =
      (g.tree.listing s).map Call.glimpse := by
    simp only [Field.tree, Tree.listing, List.map_append, List.map_cons]
    rfl
  have hsame (list : List Field) (i : Nat) :
      (forestListing s ((list.modify i (Field.redeclare d?)).map Field.tree)).map Call.glimpse =
        (forestListing s (list.map Field.tree)).map Call.glimpse := by
    induction list generalizing i with
    | nil => simp
    | cons g rest ih =>
      cases i with
      | zero =>
        simp only [List.modify_zero_cons, List.map_cons, forestListing, List.map_append, hfield]
      | succ i =>
        simp only [List.modify_succ_cons, List.map_cons, forestListing, List.map_append, ih]
  exact hsame t.fields index

/-- The calls for the annotations and the fields of a type. -/
def headListing (t : DeclaredType) : List Call :=
  forestListing t.inside (t.tags.map Tag.tree) ++ forestListing t.inside (t.fields.map Field.tree)

/-- The listing of a type, cut at one of its methods. -/
lemma listing_eq {before after : List Method} {m : Method}
    (hmethods : t.methods = before ++ m :: after) :
    t.listing = ({} : Surroundings).call .pre (.type t) .fixed :: t.headListing ++
      forestListing t.inside (before.map (Method.tree t.fields)) ++
        (m.tree t.fields).listing t.inside ++
          forestListing t.inside (after.map (Method.tree t.fields)) ++
            [({} : Surroundings).call .post (.type t) .fixed] := by
  unfold listing tree headListing
  rw [Tree.listing, hmethods, List.map_append, List.map_cons, forestListing_append,
    forestListing_append, forestListing_append, forestListing]
  simp only [List.cons_append, List.append_assoc]
  rfl

/-- A field redeclared by its own declaration is the type as it was. -/
lemma redeclare_self (hf : t.fields[index]? = some f) : t.redeclare index f.declaration = t := by
  have hfields : t.fields.modify index (Field.redeclare f.declaration) = t.fields := by
    apply List.ext_getElem?
    intro i
    rw [List.getElem?_modify]
    by_cases hi : index = i
    · rw [← hi, hf]
      simp [Field.redeclare]
    · simp [hi]
  unfold redeclare
  rw [hfields]

end DeclaredType

section Counts

variable {phase : Phase} {index : Nat}

/-- Calls about other anchors count nothing. -/
lemma countP_declares_of_free {list : List Call} (h : ∀ c ∈ list, c.node.anchored? ≠ some index) :
    list.countP (Call.declares phase index) = 0 := by
  apply List.countP_eq_zero.mpr
  intro c hc
  simp [Call.declares, h c hc]

/-- An anchor is called for once in each phase, and none of the other calls between is for one. -/
lemma countP_anchorListing {id : FieldId} (hid : id.index = index) (info : Provenance) (f : Field)
    (s : Surroundings) : (f.anchorListing s id info).countP (Call.declares phase index) = 1 := by
  -- Between the two calls there are only those of the initializer, which has no anchors.
  have hinner (inside : Surroundings) :
      (f.initializer?.toList.flatMap fun e => e.tree.listing inside).countP
        (Call.declares phase index) = 0 := by
    apply countP_declares_of_free
    intro c hc
    obtain ⟨e, -, he⟩ := List.mem_flatMap.mp hc
    exact (Places.expr (f := f) e inside).free rfl none c he
  have hcall (k : Phase) (x : Node) (hx : x.anchored? = some index) :
      Call.declares phase index (s.call k x .statement) = decide (k = phase) := by
    show (decide (k = phase) && decide (x.anchored? = some index)) = _
    simp [hx]
  have hx : (Node.declaration (.field id) info (.field f)).anchored? = some index := by
    rw [← hid]
    rfl
  unfold Field.anchorListing
  simp only [List.cons_append, List.countP_cons, List.countP_append, List.countP_nil, hinner,
    hcall _ _ hx]
  cases phase <;> rfl

end Counts

namespace DeclaredType

variable {t : DeclaredType} {index : Nat} {f : Field}

/-- The calls before the methods are about no anchor. -/
lemma free_headListing (f : Field) : ∀ c ∈ t.headListing, c.node.anchored? ≠ some index := by
  intro c hc
  rcases List.mem_append.mp hc with hc | hc
  · exact (Places.tags (f := f) t.tags t.inside).free rfl none c hc
  · exact (Places.fields (f := f) t.fields t.inside).free rfl none c hc

/-- What the head of a type is told does not depend on the declaration statements of its fields. -/
lemma glimpses_headListing (d? : Option Declaration) :
    (t.redeclare index d?).headListing.map Call.glimpse = t.headListing.map Call.glimpse := by
  unfold headListing
  rw [List.map_append, List.map_append]
  exact congrArg _ (glimpses_fields d? t.inside)

/-- The one method that has an anchor of a field visits the field's initializer once, and no other
method visits it. -/
lemma initializesOnce {before after : List Method} {m : Method} (hf : t.fields[index]? = some f)
    (h : ∀ k ∈ t.methods, ∀ a ∈ k.anchors, ((k.scope t.fields).resolve? a.slot).isSome)
    (hmethods : t.methods = before ++ m :: after)
    (hbefore : anchorsOf index (before.flatMap Method.anchors) = 0)
    (hm : anchorsOf index m.anchors = 1)
    (hafter : anchorsOf index (after.flatMap Method.anchors) = 0) :
    (∀ phase, t.listing.countP (Call.declares phase index) = 1) ∧ m.InitializesOnce t index f := by
  -- The calls are cut in three: those of the methods before the one with the anchor, its own, and
  -- those of the methods behind it.
  have hmem (k : Method) (hk : k ∈ before ++ m :: after) := h k (hmethods ▸ hk)
  obtain ⟨first, hfreeFirst, hfirst⟩ :=
    (Places.methods hf t.inside before fun k hk => hmem k (by simp [hk])).eq_fixed hbefore
  obtain ⟨a, b, hfree, s, id, info, hid, hinner⟩ :=
    (Places.method hf t.inside (hmem m (by simp))).eq_append hm
  obtain ⟨last, hfreeLast, hlast⟩ :=
    (Places.methods hf t.inside after fun k hk => hmem k (by simp [hk])).eq_fixed hafter
  have hlisting (d? : Option Declaration) := listing_eq (t := t.redeclare index d?) hmethods
  have hsame (d? : Option Declaration) : (t.redeclare index d?).inside = t.inside := rfl
  simp only [hsame, hfirst, hlast] at hlisting
  constructor
  · -- Among all of these only the call for the anchor itself is counted.
    intro phase
    have hlist := hlisting f.declaration
    rw [hinner, redeclare_self hf] at hlist
    rw [hlist]
    have ha : a.countP (Call.declares phase index) = 0 :=
      countP_declares_of_free fun c hc => hfree c (by simp [hc])
    have hb : b.countP (Call.declares phase index) = 0 :=
      countP_declares_of_free fun c hc => hfree c (by simp [hc])
    have htype (k : Phase) :
        Call.declares phase index (({} : Surroundings).call k (.type t) .fixed) = false := by
      show (decide (k = phase) && decide (none = some index)) = false
      simp
    simp only [List.cons_append, List.append_assoc, List.countP_append, List.countP_cons,
      List.countP_nil, countP_declares_of_free (free_headListing f),
      countP_declares_of_free hfreeFirst, countP_declares_of_free hfreeLast, ha, hb,
      countP_anchorListing hid, htype]
    rfl
  · -- What is around the method is the same for every declaration, as far as a visitor can see.
    refine ⟨(({} : Surroundings).call .pre (.type t) .fixed).glimpse ::
        t.headListing.map Call.glimpse ++ first.map Call.glimpse,
      last.map Call.glimpse ++ [(({} : Surroundings).call .post (.type t) .fixed).glimpse],
      a, b, s, id, info, hid, fun d? => ⟨?_, hinner d?⟩⟩
    rw [hlisting]
    simp only [List.map_append, List.map_cons, List.map_nil, glimpses_headListing,
      List.append_assoc, List.cons_append]
    rfl

end DeclaredType

/-- Each anchor of a program that passes the check stands for a variable in reach. -/
lemma Program.resolves_of_verify {p : Program} (hp : p.verify = .ok ()) : p.Resolves := by
  intro t ht m hm a ha
  obtain ⟨-, hfits, -⟩ := t.firstFault?_eq_none_iff.mp (Program.verify_eq_ok.mp hp t ht)
  exact (hfits m hm a ha).isSome_resolve?

/-- In a traversal of a program that passes the check, by a visitor that accepts every node, no
anchor dangles.  For each field of each type one call in each phase is for an anchor of the field;
these are made in a method of the field's staticness, and nothing but the calls between them depends
on what the field's initializer is. -/
theorem Program.traverse_of_verify {σ : Type} {v : Visitor σ} {w : Watcher σ} (hv : v.Watches w)
    (haccept : ∀ own call, w.answer own call = true) {p : Program} (hp : p.verify = .ok ())
    (own : σ) :
    p.traverse v own =
        .ok () ⟨p, {}, w.told own (p.types.flatMap DeclaredType.listing)⟩ ∧
      ∀ t ∈ p.types, ∀ index f, t.fields[index]? = some f →
        (∀ phase, t.listing.countP (Call.declares phase index) = 1) ∧
          ∃ m ∈ t.methods, m.isStatic = f.isStatic ∧ m.InitializesOnce t index f := by
  constructor
  · have hall : ∀ seen call, w.answers own seen call = true := fun _ _ => haccept _ _
    rw [p.traverse_eq_calls hv (resolves_of_verify hp), Program.calls,
      forestCalls_of_accepts hall, Program.forest, forestListing_map]
    rfl
  · intro t ht index f hf
    obtain ⟨-, hfits, hcount⟩ := t.firstFault?_eq_none_iff.mp (Program.verify_eq_ok.mp hp t ht)
    have hlt : index < t.fields.length := (List.getElem?_eq_some_iff.mp hf).1
    obtain ⟨before, after, m, hmethods, hbefore, hm, hafter⟩ :=
      DeclaredType.exists_method_of_anchorCount (hcount index hlt)
    have hmem : m ∈ t.methods := by simp [hmethods]
    obtain ⟨hphase, honce⟩ := DeclaredType.initializesOnce hf
      (fun k hk a ha => (hfits k hk a ha).isSome_resolve?) hmethods hbefore hm hafter
    -- The one anchor of the field says that the method is one for fields of its staticness.
    obtain ⟨a, ha, hindex⟩ := List.countP_pos_iff.mp (show 0 < anchorsOf index m.anchors by omega)
    have hstatic := (hfits m hmem a ha).isStatic_eq (of_decide_eq_true hindex) hf
    exact ⟨hphase, m, hmem, hstatic, honce⟩

/-- The initializer of the one field of the program with a branch is visited in its static
initializer. -/
theorem initializesOnce_withBranch :
    Program.withBranch.verify = .ok () ∧ ∃ notes,
      Program.withBranch.traverse (noteTaker fun _ => true) [] = .ok () ⟨.withBranch, {}, notes⟩ ∧
      notes.countP (·.kind = .binary) = 2 ∧
      ∃ t ∈ Program.withBranch.types, ∃ f, t.fields[0]? = some f ∧ f.initializer?.isSome ∧
        ∃ m ∈ t.methods, m.isStatic = true ∧ m.InitializesOnce t 0 f := by
  have hverify : Program.withBranch.verify = .ok () := by decide +kernel
  obtain ⟨hnotes, honce⟩ :=
    Program.traverse_of_verify (noteTaker_watches fun _ => true) (fun _ _ => rfl) hverify []
  refine ⟨hverify, _, hnotes, by decide +kernel, ?_⟩
  obtain ⟨-, m, hm, hstatic, hinitializes⟩ := honce _ List.mem_cons_self 0 _ rfl
  exact ⟨_, List.mem_cons_self, _, rfl, rfl, m, hm, hstatic, hinitializes⟩

end DeclIR
