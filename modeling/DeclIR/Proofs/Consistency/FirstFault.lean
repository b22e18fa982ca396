import DeclIR.Invariant
import DeclIR.Proofs.Traversal.Observation
import Mathlib.Data.List.Basic

/-!
# The first fault of a declared type

The checker is an observer (`checker_observes`), so what it reports can be read off the code.
`DeclaredType.firstFault?` does this: fields come first, then anchors in the order they are
executed, then the number of each field's anchors.

* `DeclaredType.verify_eq`: checking a type reports its first fault.
* `Program.traverse_checker`: checking a program reports the first fault of the first type that has
  one, and leaves the program as it was.
-/

namespace DeclIR

open Visit

namespace Checker

/-- The staticness of a method that initializes fields. -/
def initializerOf (m : Method) : Option Bool := if m.isInitializer then some m.isStatic else none

/-- The checker as an observer: it changes nothing but what it knows. -/
def observer : Observer Checker where
  pre x c k :=
    match x with
    | .type t => .ok true { k with typeName := t.name, anchors := [] }
    | .field f =>
      match k.fieldFault? f c.enclosingType with
      | some e => .error e k
      | none => .ok false k
    | .method m => .ok true { k with initializer := initializerOf m }
    | .declaration (.field id) info (.field f) =>
      match k.anchorFault? f id.index info with
      | some e => .error e k
      | none => .ok false { k with anchors := k.anchors ++ [(id.index, info)] }
    | .declaration .. => .ok false k
    | .expr _ => .ok false k
    | _ => .ok true k
  post x _ k :=
    match x with
    | .type t =>
      match k.countFault? t.fields with
      | some e => .error e k
      | none => .ok () k
    | .method _ => .ok () { k with initializer := none }
    | _ => .ok () k

lemma raise?_apply {σ ν : Type} (f : Option Fault) (s : Site σ ν) :
    (raise? f : Visit σ ν Unit) s = match f with
      | some e => .error e s
      | none => .ok () s := by
  cases f <;> rfl

/-- The checker only looks: it does what its observer does, and changes no node. -/
theorem checker_observes : checker.Observes observer where
  keepTags := rfl
  visitType := rfl
  -- Three hooks can refuse; each of them refuses with what the checker finds for its node.
  endVisitType := by
    funext s
    simp only [checker, look, observer, bind_apply, get_apply, node_apply, raise?_apply]
    cases s.own.countFault? s.node.fields <;> rfl
  visitField := by
    funext s
    simp only [checker, look, observer, bind_apply, get_apply, raise?_apply]
    cases s.own.fieldFault? s.node s.context.enclosingType <;> rfl
  endVisitField := rfl
  visitMethod := rfl
  endVisitMethod := rfl
  visitParameter := rfl
  endVisitParameter := rfl
  visitTag _ := rfl
  endVisitTag _ := rfl
  visitBlock := rfl
  endVisitBlock := rfl
  -- The slot and the declaration come from the same look-up, and only fields are checked.
  visitDeclaration slot info := by
    funext s
    obtain ⟨d, c, k⟩ := s
    cases slot with
    | localVar i => cases d <;> rfl
    | field id =>
      cases d with
      | localVar v => rfl
      | field f =>
        simp only [checker, look, observer, bind_apply, get_apply, node_apply, raise?_apply]
        cases k.anchorFault? f id.index info <;> rfl
  endVisitDeclaration slot info := by
    funext s
    obtain ⟨d, c, k⟩ := s
    cases slot <;> cases d <;> rfl
  visitStmt := rfl
  endVisitStmt := rfl
  visitExpr := rfl
  endVisitExpr := rfl

/-! ## Anchors in walk order -/

/-- The field that an anchor is one of, if it is a field's, and the anchor's provenance. -/
def site? (a : Anchor) : Option (Nat × Provenance) :=
  match a.slot with
  | .field id => some (id.index, a.info)
  | .localVar _ => none

/-- The fault of an anchor in a method whose variables in reach are those of `scope`. -/
def siteFault? (scope : Scope) (k : Checker) (a : Anchor) : Option Fault :=
  match a.slot, scope.resolve? a.slot with
  | slot, none => some (.danglingSlot slot a.info)
  | .field id, some (.field f) => k.anchorFault? f id.index a.info
  | _, _ => none

/-- Remembers an anchor if it is a field's. -/
def log (k : Checker) (a : Anchor) : Checker :=
  { k with anchors := k.anchors ++ (site? a).toList }

/-- Fails at a faulty anchor and remembers any other one. -/
def see (scope : Scope) (a : Anchor) : EStateM Fault Checker Unit := fun k =>
  match siteFault? scope k a with
  | some f => .error f k
  | none => .ok () (k.log a)

/-- Where the observer has nothing to say about a node itself, only the parts count. -/
lemma node_eq {x : Node} {c : Context} {m : EStateM Fault Checker Unit}
    (hpre : observer.pre x c = pure true) (hpost : observer.post x c = pure ()) :
    observer.node x c m = m := by
  simp only [Observer.node, hpre, hpost, pure_bind, if_true]
  exact bind_pure_unit

lemma expr_eq (c : Context) (e : Expr) : observer.expr c e = pure () := by
  cases e <;> rfl

lemma tags_eq (c : Context) (list : List Tag) : observer.tags c list = pure () := by
  induction list with
  | nil => rfl
  | cons t rest ih =>
    rw [Observer.tags, List.forM, node_eq rfl rfl, pure_bind]
    exact ih

lemma parameters_eq (c : Context) (list : List Variable) :
    list.forM (observer.parameter c) = pure () := by
  induction list with
  | nil => rfl
  | cons p rest ih => rw [List.forM, Observer.parameter, node_eq rfl rfl, pure_bind, ih]

/-- Anchors of local variables are not logged. -/
lemma log_localVar (k : Checker) (info : Provenance) (i : Nat) :
    k.log ⟨info, .localVar i⟩ = k := by
  simp [log, site?]

/-- An anchor is looked at before anything inside of it, and nothing inside of it is reported. -/
lemma anchor_eq (scope : Scope) (c : Context) (info : Provenance) (slot : VarSlot) :
    observer.anchor scope c info slot = see scope ⟨info, slot⟩ := by
  funext k
  rw [Observer.anchor, see, siteFault?]
  cases hd : scope.resolve? slot with
  -- An anchor that does not resolve is a fault of the walk, before the checker sees it.
  | none => cases slot <;> rfl
  | some d =>
    cases slot with
    | localVar i =>
      rw [log_localVar]
      cases d <;> rfl
    | field id =>
      -- A field's slot never resolves to a local variable.
      obtain ⟨-, f, -, rfl⟩ := Scope.resolve?_field_eq_some_iff.mp hd
      have hpre : observer.pre (.declaration (.field id) info (.field f)) c k =
          match k.anchorFault? f id.index info with
          | some e => .error e k
          | none => .ok false (k.log ⟨info, .field id⟩) := rfl
      simp only [Observer.node, EStateM_bind_apply, hpre]
      cases k.anchorFault? f id.index info <;> rfl

mutual

/-- Of a statement only the anchors are looked at, in order. -/
lemma stmt_eq (scope : Scope) (c : Context) : ∀ s : Stmt,
    observer.stmt scope c s = s.anchors.forM (see scope)
  | .declare info slot => by
    rw [Observer.stmt, anchor_eq, Stmt.anchors, List.forM]
    exact bind_pure_unit.symm
  | .block b => by rw [Observer.stmt, Stmt.anchors, block_eq scope c b]
  | .eval i e => by
    rw [Observer.stmt, node_eq rfl rfl, expr_eq]
    rfl
  | .ret i (some e) => by
    rw [Observer.stmt, node_eq rfl rfl, expr_eq]
    rfl
  | .ret i none => by
    rw [Observer.stmt, node_eq rfl rfl]
    rfl
  | .branch i cond onTrue onFalse => by
    rw [Observer.stmt, node_eq rfl rfl, expr_eq, pure_bind, block_eq scope _ onTrue,
      alternative_eq scope c onFalse, Stmt.anchors]
    exact List.forM_append.symm

lemma block_eq (scope : Scope) (c : Context) : ∀ b : BlockOf Stmt,
    observer.block scope c b = (Block.anchors b).forM (see scope)
  | ⟨info, list⟩ => by
    rw [Observer.block, node_eq rfl rfl, stmts_eq scope c list, Block.anchors]

lemma alternative_eq (scope : Scope) (c : Context) : ∀ b : Option (BlockOf Stmt),
    observer.alternative scope c b = (elseAnchors b).forM (see scope)
  | none => rfl
  | some b => by rw [Observer.alternative, block_eq scope _ b, elseAnchors]

lemma stmts_eq (scope : Scope) (c : Context) : ∀ list : List Stmt,
    observer.stmts scope c list = (stmtsAnchors list).forM (see scope)
  | [] => rfl
  | s :: rest => by
    rw [Observer.stmts, stmt_eq scope _ s, stmts_eq scope c rest, stmtsAnchors]
    exact List.forM_append.symm

end

/-! ## What is found at the parts of a type -/

/-- The first fault of an anchor in a method's body, in a type that has these fields. -/
def methodFault? (fields : List Field) (k : Checker) (m : Method) : Option Fault :=
  m.anchors.findSome?
    (siteFault? ⟨m.owner, fields, m.locals⟩ { k with initializer := initializerOf m })

/-- What is known after a method: its anchors, and that no initializer is being walked. -/
def logMethod (k : Checker) (m : Method) : Checker :=
  { k with anchors := k.anchors ++ m.anchors.filterMap site?, initializer := none }

/-- What is logged for anchors one after the other is what the list holds of fields. -/
lemma foldl_log (list : List Anchor) (k : Checker) :
    list.foldl log k = { k with anchors := k.anchors ++ list.filterMap site? } := by
  induction list generalizing k with
  | nil => simp
  | cons a rest ih =>
    rw [List.foldl_cons, ih, log]
    cases h : site? a <;> simp [h]

/-- The first anchor with a fault ends the check; without one, all sites are logged. -/
lemma outcome_see (scope : Scope) (list : List Anchor) (k : Checker) :
    outcome (list.forM (see scope)) k = match list.findSome? (siteFault? scope k) with
      | some f => .error f
      | none => .ok { k with anchors := k.anchors ++ list.filterMap site? } := by
  have hstep (a : Anchor) (k : Checker) :
      outcome (see scope a) k = match siteFault? scope k a with
        | some f => .error f
        | none => .ok (k.log a) := by
    rw [outcome, see]
    cases siteFault? scope k a <;> rfl
  have h := outcome_forM hstep (fun _ _ => rfl) list k
  rw [foldl_log] at h
  exact h

/-- A field is reported or passed over, and nothing is logged for it. -/
lemma outcome_field (c : Context) (f : Field) (k : Checker) :
    outcome (observer.field c f) k = match k.fieldFault? f c.enclosingType with
      | some f => .error f
      | none => .ok k := by
  have hpre : observer.pre (.field f) (c.enter .field .fixed) k =
      match k.fieldFault? f c.enclosingType with
      | some e => .error e k
      | none => .ok false k := rfl
  rw [Observer.field, Observer.outcome_node, hpre]
  cases k.fieldFault? f c.enclosingType <;> rfl

/-- A body is checked anchor by anchor. -/
lemma outcome_body (fields : List Field) (c : Context) (m : Method) (k : Checker) :
    outcome (observer.body fields c m) k =
      match m.anchors.findSome? (siteFault? ⟨m.owner, fields, m.locals⟩ k) with
      | some f => .error f
      | none => .ok { k with anchors := k.anchors ++ m.anchors.filterMap site? } := by
  rw [Observer.body, Method.anchors]
  cases m.body with
  | none => simp [outcome_pure]
  | some b =>
    simp only
    rw [block_eq, outcome_see]

/-- A method is checked as its body is, with what is known of its name and staticness. -/
lemma outcome_method (fields : List Field) (c : Context) (m : Method) (k : Checker) :
    outcome (observer.method fields c m) k = match methodFault? fields k m with
      | some f => .error f
      | none => .ok (k.logMethod m) := by
  have hpre : observer.pre (.method m) (c.enter .method .fixed) k =
      .ok true { k with initializer := initializerOf m } := rfl
  rw [Observer.method, Observer.outcome_node, hpre, tags_eq, parameters_eq, methodFault?]
  simp only [pure_bind, outcome_body]
  cases m.anchors.findSome? _ <;> rfl

/-- What is known after a type. -/
def logType (k : Checker) (t : DeclaredType) : Checker :=
  t.methods.foldl logMethod { k with typeName := t.name, anchors := [] }

end Checker

/-! ## Declared types -/

namespace DeclaredType

open Checker

/-- The anchors of the type's fields in walk order, each with the index of its field. -/
def fieldSites (t : DeclaredType) : List (Nat × Provenance) :=
  t.methods.flatMap fun m => m.anchors.filterMap site?

/-- The first fault of a type: of a field in itself, else of an anchor, else of the number of a
field's anchors. -/
def firstFault? (t : DeclaredType) : Option Fault :=
  let k : Checker := { typeName := t.name, anchors := t.fieldSites }
  (t.fields.findSome? (k.fieldFault? · (some t.id))).or <|
    (t.methods.findSome? (methodFault? t.fields k)).or (k.countFault? t.fields)

end DeclaredType

namespace Checker

/-- Methods are logged one after the other; the name of the type stays. -/
lemma foldl_logMethod (list : List Method) (k : Checker) :
    (list.foldl logMethod k).typeName = k.typeName ∧
      (list.foldl logMethod k).anchors =
        k.anchors ++ list.flatMap fun m => m.anchors.filterMap site? := by
  induction list generalizing k with
  | nil => simp
  | cons m rest ih =>
    obtain ⟨hname, hanchors⟩ := ih (k.logMethod m)
    rw [List.foldl_cons, hname, hanchors]
    simp [logMethod]

/-- What is reported of the numbers depends on the name of the type and the logged sites only. -/
lemma countFault?_congr {k l : Checker} (hname : k.typeName = l.typeName)
    (hanchors : k.anchors = l.anchors) (fields : List Field) :
    k.countFault? fields = l.countFault? fields := by
  obtain ⟨⟩ := k
  obtain ⟨⟩ := l
  subst hname hanchors
  rfl

/-- A type is checked from a fresh start, whatever the checker was used for before. -/
lemma outcome_type (c : Context) (t : DeclaredType) (k : Checker) :
    outcome (observer.type c t) k = match t.firstFault? with
      | some f => .error f
      | none => .ok (k.logType t) := by
  have hpre : observer.pre (.type t) (Observer.insideType c t) k =
      .ok true { k with typeName := t.name, anchors := [] } := rfl
  have hpost (k : Checker) : outcome (observer.post (.type t) (Observer.insideType c t)) k =
      match k.countFault? t.fields with
      | some f => .error f
      | none => .ok k := by
    simp only [outcome, observer]
    cases k.countFault? t.fields <;> rfl
  have hfields := outcome_forM (outcome_field (Observer.insideType c t)) (fun _ _ => rfl) t.fields
  have hmethods := outcome_forM (outcome_method t.fields (Observer.insideType c t))
    (fun _ _ => rfl) t.methods
  -- What is known when the fields are checked, and when all methods have been walked.
  let start : Checker := { k with typeName := t.name, anchors := [] }
  obtain ⟨hname, hanchors⟩ := foldl_logMethod t.methods start
  have hfault : t.firstFault? =
      (t.fields.findSome? fun f => start.fieldFault? f (some t.id)).or
        ((t.methods.findSome? (methodFault? t.fields start)).or
          ((k.logType t).countFault? t.fields)) := by
    have hcount := countFault?_congr (l := { typeName := t.name, anchors := t.fieldSites })
      hname hanchors t.fields
    rw [logType, hcount]
    rfl
  -- The three parts of the first fault are the three phases of the check, in order.
  rw [Observer.type, Observer.outcome_node, hpre, tags_eq, hfault]
  simp only [pure_bind, outcome_bind, hfields]
  rw [show (Observer.insideType c t).enclosingType = some t.id from rfl]
  cases t.fields.findSome? fun f => start.fieldFault? f (some t.id) with
  | some f => rfl
  | none =>
    simp only [List.foldl_fixed, Option.none_or]
    show outcome (t.methods.forM (observer.method t.fields (Observer.insideType c t))) start >>=
      outcome (observer.post (.type t) (Observer.insideType c t)) = _
    rw [hmethods start]
    cases t.methods.findSome? (methodFault? t.fields start) with
    | some f => rfl
    | none => exact hpost (k.logType t)

end Checker

/-! ## Checking -/

open Checker

/-- A type is inconsistent just when it has a fault, and the first one is reported. -/
theorem DeclaredType.verify_eq (t : DeclaredType) :
    t.verify = match t.firstFault? with
      | some f => .error f
      | none => .ok () := by
  have h := (checker_observes.walkType t {}).outcome {}
  rw [outcome_type] at h
  rw [verify]
  cases hf : t.firstFault? with
  | none =>
    rw [hf] at h
    rw [h]
  | some f =>
    rw [hf] at h
    obtain ⟨s, h, -⟩ := h
    rw [h]

/-- The checker stops at the first type with a fault, and changes no type. -/
theorem Program.traverse_checker (p : Program) :
    match p.types.findSome? DeclaredType.firstFault? with
    | some f => ∃ s, p.traverse checker {} = .error f s ∧ s.node = p
    | none => ∃ s, p.traverse checker {} = .ok () s ∧ s.node = p := by
  have h := (checker_observes.walkProgram p).outcome {}
  rw [Observer.program, outcome_forM (outcome_type {}) fun _ _ => rfl] at h
  rw [traverse]
  cases hf : p.types.findSome? DeclaredType.firstFault? with
  | none =>
    rw [hf] at h
    exact ⟨_, h, rfl⟩
  | some f =>
    rw [hf] at h
    exact h

/-- A program is inconsistent just when one of its types is, and the first fault of the first such
type is reported. -/
theorem Program.verify_eq (p : Program) :
    p.verify = match p.types.findSome? DeclaredType.firstFault? with
      | some f => .error f
      | none => .ok () := by
  have h := p.traverse_checker
  rw [verify]
  cases hf : p.types.findSome? DeclaredType.firstFault? with
  | none =>
    rw [hf] at h
    obtain ⟨s, h, -⟩ := h
    rw [h]
  | some f =>
    rw [hf] at h
    obtain ⟨s, h, -⟩ := h
    rw [h]

end DeclIR
