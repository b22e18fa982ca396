import DeclIR.Proofs.Code.Anchors
import DeclIR.Traversal.Walk
import Mathlib.Tactic.Lemma

/-!
# What a walk comes to

A walk of a type goes through the bodies of its methods.  On its way it comes to expressions, and to
anchors, where it goes on with the initializer of the variable that the anchor stands for.  So the
expressions that are walked (`DeclaredType.walked`) are those of the bodies and those of the
initializers that an anchor stands for; an initializer that no anchor stands for is not among them.
-/

namespace DeclIR

/-! ## Expressions -/

namespace Expr

/-- The direct parts of an expression, in the order they are visited. -/
def operands : Expr → List Expr
  | .instanceField _ _ receiver => [receiver]
  | .binary _ _ lhs rhs => [lhs, rhs]
  | _ => []

/-- The part of an expression at a path, which says of each node on the way which of its operands
comes next. -/
def at? : List Nat → Expr → Option Expr
  | [], e => some e
  | i :: path, e => e.operands[i]?.bind (at? path)

/-- The fields that an expression reads through their types, at any depth. -/
def reads : Expr → List FieldId
  | .staticField _ f => [f]
  | .instanceField _ _ receiver => receiver.reads
  | .binary _ _ lhs rhs => lhs.reads ++ rhs.reads
  | _ => []

end Expr

/-! ## What a body is made of -/

/-- What a walk of a body comes across. -/
inductive Event where
  /-- An expression that is not part of another one. -/
  | expr (e : Expr)
  | anchor (a : Anchor)

/-- The anchor, if it is one. -/
def Event.anchor? : Event → Option Anchor
  | .expr _ => none
  | .anchor a => some a

mutual

/-- The expressions and anchors of a statement in walk order. -/
def Stmt.events : Stmt → List Event
  | .declare info slot => [.anchor ⟨info, slot⟩]
  | .eval _ e => [.expr e]
  | .ret _ none => []
  | .ret _ (some e) => [.expr e]
  | .branch _ cond onTrue onFalse => .expr cond :: (Block.events onTrue ++ elseEvents onFalse)
  | .block b => Block.events b

/-- The expressions and anchors of a block. -/
def Block.events : BlockOf Stmt → List Event
  | ⟨_, stmts⟩ => stmtsEvents stmts

/-- The expressions and anchors of an alternative that may be absent. -/
def elseEvents : Option (BlockOf Stmt) → List Event
  | none => []
  | some b => Block.events b

/-- The expressions and anchors of some statements. -/
def stmtsEvents : List Stmt → List Event
  | [] => []
  | s :: rest => s.events ++ stmtsEvents rest

end

mutual

/-- Among the events of a statement the anchors are the ones that it contains. -/
lemma Stmt.filterMap_events : ∀ s : Stmt, s.events.filterMap Event.anchor? = s.anchors
  | .declare info slot => rfl
  | .eval i e => rfl
  | .ret i none => rfl
  | .ret i (some e) => rfl
  | .branch i cond onTrue onFalse => by
    rw [Stmt.events, List.filterMap_cons_none rfl, List.filterMap_append, Stmt.anchors,
      Block.filterMap_events onTrue, else_filterMap_events onFalse]
  | .block b => Block.filterMap_events b

lemma Block.filterMap_events : ∀ b : BlockOf Stmt,
    (Block.events b).filterMap Event.anchor? = Block.anchors b
  | ⟨_, stmts⟩ => stmts_filterMap_events stmts

lemma else_filterMap_events : ∀ b : Option (BlockOf Stmt),
    (elseEvents b).filterMap Event.anchor? = elseAnchors b
  | none => rfl
  | some b => Block.filterMap_events b

lemma stmts_filterMap_events : ∀ stmts : List Stmt,
    (stmtsEvents stmts).filterMap Event.anchor? = stmtsAnchors stmts
  | [] => rfl
  | s :: rest => by
    rw [stmtsEvents, List.filterMap_append, Stmt.filterMap_events s, stmts_filterMap_events rest,
      stmtsAnchors]

end

namespace Method

/-- The expressions and anchors of a method's body, if it has one. -/
def events (m : Method) : List Event :=
  match m.body with
  | some b => Block.events b
  | none => []

/-- Among the events of a method the anchors are those of its body. -/
lemma filterMap_events (m : Method) : m.events.filterMap Event.anchor? = m.anchors := by
  rw [events, anchors]
  cases m.body with
  | none => rfl
  | some b => exact Block.filterMap_events b

lemma mem_anchors_iff {m : Method} {a : Anchor} : a ∈ m.anchors ↔ .anchor a ∈ m.events := by
  rw [← m.filterMap_events, List.mem_filterMap]
  constructor
  · rintro ⟨x, hx, hxa⟩
    cases x with
    | expr e => cases hxa
    | anchor b =>
      cases hxa
      exact hx
  · intro ha
    exact ⟨.anchor a, ha, rfl⟩

end Method

/-! ## Variables in reach of a body -/

namespace Scope

variable {scope : Scope} {slot : VarSlot} {d : Declared}

/-- A field's slot resolves to a field of the owner that is there. -/
lemma resolve?_field_eq_some_iff {id : FieldId} :
    scope.resolve? (.field id) = some d ↔
      id.owner = scope.owner ∧ ∃ f, scope.fields[id.index]? = some f ∧ d = .field f := by
  simp only [resolve?, Option.ite_none_right_eq_some, Option.map_eq_some_iff, @eq_comm _ d]

/-- A local variable's slot resolves to a local variable that is there. -/
lemma resolve?_localVar_eq_some_iff {i : Nat} :
    scope.resolve? (.localVar i) = some d ↔ ∃ x, scope.locals[i]? = some x ∧ d = .localVar x := by
  simp only [resolve?, Option.map_eq_some_iff, @eq_comm _ d]

/-- To put a variable back into its slot changes nothing. -/
lemma store_resolve (h : scope.resolve? slot = some d) : scope.store slot d = scope := by
  cases slot with
  | field id =>
    obtain ⟨-, f, hf, rfl⟩ := resolve?_field_eq_some_iff.mp h
    obtain ⟨hlt, rfl⟩ := List.getElem?_eq_some_iff.mp hf
    simp only [store, List.set_getElem_self hlt]
  | localVar i =>
    obtain ⟨x, hx, rfl⟩ := resolve?_localVar_eq_some_iff.mp h
    obtain ⟨hlt, rfl⟩ := List.getElem?_eq_some_iff.mp hx
    simp only [store, List.set_getElem_self hlt]

/-- The expression that a walk comes to at an event: the initializer, where the event is an anchor
of a variable with one. -/
def exprAt? (scope : Scope) : Event → Option Expr
  | .expr e => some e
  | .anchor a => (scope.resolve? a.slot).bind (·.base.initializer?)

end Scope

namespace Method

/-- The expressions that a walk of a method comes to, in order, in a type that has these fields. -/
def walked (fields : List Field) (m : Method) : List Expr :=
  m.events.filterMap (Scope.exprAt? ⟨m.owner, fields, m.locals⟩)

variable {m : Method} {fields : List Field} {e : Expr}

/-- A walk comes to the expressions of the body. -/
lemma mem_walked_of_expr (he : .expr e ∈ m.events) : e ∈ m.walked fields :=
  List.mem_filterMap.mpr ⟨.expr e, he, rfl⟩

/-- A walk comes to the initializer of each variable that an anchor stands for. -/
lemma mem_walked_of_anchor {a : Anchor} {d : Declared} (ha : a ∈ m.anchors)
    (hd : Scope.resolve? ⟨m.owner, fields, m.locals⟩ a.slot = some d)
    (he : d.base.initializer? = some e) : e ∈ m.walked fields := by
  refine List.mem_filterMap.mpr ⟨.anchor a, mem_anchors_iff.mp ha, ?_⟩
  rw [Scope.exprAt?, hd, Option.bind_some, he]

end Method

namespace DeclaredType

/-- The expressions that a walk of a type comes to, in order. -/
def walked (t : DeclaredType) : List Expr := t.methods.flatMap (Method.walked t.fields)

/-- The fields that are read through their types where a walk of a type comes to. -/
def reads (t : DeclaredType) : List FieldId := t.walked.flatMap Expr.reads

end DeclaredType
end DeclIR
