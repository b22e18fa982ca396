import DeclIR.Proofs.Code.Walked
import Mathlib.Algebra.Order.Ring.Nat
import Mathlib.Data.List.Basic
import Mathlib.Logic.Function.Iterate

/-!
# Rewriting of expressions

A partial function on expressions rewrites code from the inside out: the parts of an expression are
rewritten first, and the expression with its new parts is then replaced if the function has a
replacement for it.  Nothing but expressions changes in a statement.  A variable's initializer is
rewritten at the variable's anchors, once for each, so what becomes of the variables in reach of a
body depends on how often each is anchored (`Scope.foldl_touch`).
-/

namespace DeclIR

/-! ## Expressions -/

namespace Expr

/-- Changes the direct parts of an expression. -/
def mapOperands (f : Expr → Expr) : Expr → Expr
  | .instanceField i id receiver => .instanceField i id (f receiver)
  | .binary i op lhs rhs => .binary i op (f lhs) (f rhs)
  | e => e

/-- Replaces an expression by what `g` has for it, if it has anything. -/
def replaceBy (g : Expr → Option Expr) (e : Expr) : Expr := (g e).getD e

/-- Replaces expressions by what `g` has for them, from the inside out. -/
def rewrite (g : Expr → Option Expr) : Expr → Expr
  | .instanceField i id receiver => replaceBy g (.instanceField i id (receiver.rewrite g))
  | .binary i op lhs rhs => replaceBy g (.binary i op (lhs.rewrite g) (rhs.rewrite g))
  | e => replaceBy g e

/-- The expressions that `g` is asked about while an expression is rewritten. -/
def offered (g : Expr → Option Expr) : Expr → List Expr
  | .instanceField i id receiver =>
    receiver.offered g ++ [.instanceField i id (receiver.rewrite g)]
  | .binary i op lhs rhs =>
    lhs.offered g ++ rhs.offered g ++ [.binary i op (lhs.rewrite g) (rhs.rewrite g)]
  | e => [e]

/-- Rewriting replaces an expression after its operands have been rewritten. -/
lemma rewrite_eq (g : Expr → Option Expr) (e : Expr) :
    e.rewrite g = replaceBy g (e.mapOperands (rewrite g)) := by
  cases e <;> rfl

/-- An expression is offered with rewritten operands, after what they offer themselves. -/
lemma offered_eq (g : Expr → Option Expr) (e : Expr) :
    e.offered g = e.operands.flatMap (offered g) ++ [e.mapOperands (rewrite g)] := by
  cases e <;> simp [offered, operands, mapOperands]

/-- There is nothing in an expression that `g` replaces. -/
def Settled (g : Expr → Option Expr) (e : Expr) : Prop := ∀ x ∈ e.offered g, g x = none

/-- Where nothing that is offered is replaced, rewriting changes nothing. -/
lemma Settled.rewrite {g : Expr → Option Expr} {e : Expr} (h : e.Settled g) : e.rewrite g = e := by
  -- An expression whose parts stay is offered as it is.
  induction e with
  | instanceField i id receiver ih =>
    have hreceiver := ih fun x hx => h x (List.mem_append_left _ hx)
    have hself := h (.instanceField i id (receiver.rewrite g)) (by simp [offered])
    rw [Expr.rewrite, replaceBy, hself, hreceiver]
    rfl
  | binary i op lhs rhs ihl ihr =>
    have hlhs := ihl fun x hx => h x (by simp [offered, hx])
    have hrhs := ihr fun x hx => h x (by simp [offered, hx])
    have hself := h (.binary i op (lhs.rewrite g) (rhs.rewrite g)) (by simp [offered])
    rw [Expr.rewrite, replaceBy, hself, hlhs, hrhs]
    rfl
  | _ =>
    have hself := h _ List.mem_cons_self
    simp only [Expr.rewrite, replaceBy, hself, Option.getD_none]

end Expr

/-! ## Statements -/

mutual

/-- Changes each expression that is not part of another one in a statement. -/
def Stmt.mapExpr (f : Expr → Expr) : Stmt → Stmt
  | .declare info slot => .declare info slot
  | .eval info e => .eval info (f e)
  | .ret info value => .ret info (value.map f)
  | .branch info cond onTrue onFalse =>
    .branch info (f cond) (Block.mapExpr f onTrue) (elseMapExpr f onFalse)
  | .block b => .block (Block.mapExpr f b)

/-- Changes the expressions of a block. -/
def Block.mapExpr (f : Expr → Expr) : BlockOf Stmt → BlockOf Stmt
  | ⟨info, stmts⟩ => ⟨info, stmtsMapExpr f stmts⟩

/-- Changes the expressions of an alternative that may be absent. -/
def elseMapExpr (f : Expr → Expr) : Option (BlockOf Stmt) → Option (BlockOf Stmt)
  | none => none
  | some b => some (Block.mapExpr f b)

/-- Changes the expressions of some statements. -/
def stmtsMapExpr (f : Expr → Expr) : List Stmt → List Stmt
  | [] => []
  | s :: rest => s.mapExpr f :: stmtsMapExpr f rest

end

/-- On lists of statements a change of expressions is a map. -/
lemma stmtsMapExpr_eq (f : Expr → Expr) (stmts : List Stmt) :
    stmtsMapExpr f stmts = stmts.map (Stmt.mapExpr f) := by
  induction stmts with
  | nil => rfl
  | cons s rest ih => rw [stmtsMapExpr, ih, List.map_cons]

/-- Changes the expression, if it is one. -/
def Event.mapExpr (f : Expr → Expr) : Event → Event
  | .expr e => .expr (f e)
  | .anchor a => .anchor a

mutual

/-- A change of expressions changes the expressions among the events of a statement, and no anchors.
-/
lemma Stmt.events_mapExpr (f : Expr → Expr) :
    ∀ s : Stmt, (s.mapExpr f).events = s.events.map (Event.mapExpr f)
  | .declare info slot => rfl
  | .eval i e => rfl
  | .ret i none => rfl
  | .ret i (some e) => rfl
  | .branch i cond onTrue onFalse => by
    rw [Stmt.mapExpr, Stmt.events, Stmt.events, Block.events_mapExpr f onTrue,
      else_events_mapExpr f onFalse, List.map_cons, List.map_append, Event.mapExpr]
  | .block b => Block.events_mapExpr f b

/-- A body whose expressions are changed is made of the changed expressions and the same anchors. -/
lemma Block.events_mapExpr (f : Expr → Expr) :
    ∀ b : BlockOf Stmt, Block.events (Block.mapExpr f b) = (Block.events b).map (Event.mapExpr f)
  | ⟨_, stmts⟩ => stmts_events_mapExpr f stmts

lemma else_events_mapExpr (f : Expr → Expr) : ∀ b : Option (BlockOf Stmt),
    elseEvents (elseMapExpr f b) = (elseEvents b).map (Event.mapExpr f)
  | none => rfl
  | some b => Block.events_mapExpr f b

lemma stmts_events_mapExpr (f : Expr → Expr) : ∀ stmts : List Stmt,
    stmtsEvents (stmtsMapExpr f stmts) = (stmtsEvents stmts).map (Event.mapExpr f)
  | [] => rfl
  | s :: rest => by
    rw [stmtsMapExpr, stmtsEvents, stmtsEvents, Stmt.events_mapExpr f s,
      stmts_events_mapExpr f rest, List.map_append]

end

/-- Anchors are no expressions, so they stay. -/
lemma Block.anchors_mapExpr (f : Expr → Expr) (b : Block) :
    Block.anchors (Block.mapExpr f b) = Block.anchors b := by
  have hanchor : Event.anchor? ∘ Event.mapExpr f = Event.anchor? := by
    funext x
    cases x <;> rfl
  rw [← Block.filterMap_events, Block.events_mapExpr, List.filterMap_map, hanchor,
    Block.filterMap_events]

mutual

/-- A statement in which the change fixes all expressions stays as it is. -/
lemma Stmt.mapExpr_self {f : Expr → Expr} :
    ∀ s : Stmt, (∀ e, .expr e ∈ s.events → f e = e) → s.mapExpr f = s
  | .declare info slot, _ => rfl
  | .eval i e, h => by rw [Stmt.mapExpr, h e (by simp [Stmt.events])]
  | .ret i none, _ => rfl
  | .ret i (some e), h => by
    rw [Stmt.mapExpr, Option.map_some, h e (by simp [Stmt.events])]
  | .branch i cond onTrue onFalse, h => by
    simp only [Stmt.events, List.mem_cons, List.mem_append] at h
    rw [Stmt.mapExpr, h cond (.inl rfl), Block.mapExpr_self onTrue fun e he => h e (.inr (.inl he)),
      elseMapExpr_self onFalse fun e he => h e (.inr (.inr he))]
  | .block b, h => by rw [Stmt.mapExpr, Block.mapExpr_self b (by rwa [Stmt.events] at h)]

/-- A body stays as it is if each of its expressions does. -/
lemma Block.mapExpr_self {f : Expr → Expr} : ∀ b : BlockOf Stmt,
    (∀ e, .expr e ∈ Block.events b → f e = e) → Block.mapExpr f b = b
  | ⟨info, stmts⟩, h => by
    rw [Block.mapExpr, stmtsMapExpr_self stmts (by rwa [Block.events] at h)]

lemma elseMapExpr_self {f : Expr → Expr} : ∀ b : Option (BlockOf Stmt),
    (∀ e, .expr e ∈ elseEvents b → f e = e) → elseMapExpr f b = b
  | none, _ => rfl
  | some b, h => by rw [elseMapExpr, Block.mapExpr_self b (by rwa [elseEvents] at h)]

lemma stmtsMapExpr_self {f : Expr → Expr} : ∀ stmts : List Stmt,
    (∀ e, .expr e ∈ stmtsEvents stmts → f e = e) → stmtsMapExpr f stmts = stmts
  | [], _ => rfl
  | s :: rest, h => by
    simp only [stmtsEvents, List.mem_append] at h
    rw [stmtsMapExpr, Stmt.mapExpr_self s fun e he => h e (.inl he),
      stmtsMapExpr_self rest fun e he => h e (.inr he)]

end

/-! ## Variables -/

/-- Changes the initializer of a variable, if one is attached. -/
def Variable.mapInitializer (f : Expr → Expr) (v : Variable) : Variable :=
  { v with declaration := v.declaration.map fun d => { d with initializer := f d.initializer } }

/-- Changes the initializer of a field, if one is attached. -/
def Field.mapInitializer (f : Expr → Expr) (x : Field) : Field :=
  { x with toVariable := x.toVariable.mapInitializer f }

/-- Changes the initializer of a declared variable, if one is attached. -/
def Declared.mapInitializer (f : Expr → Expr) : Declared → Declared
  | .field x => .field (x.mapInitializer f)
  | .localVar v => .localVar (v.mapInitializer f)

/-- A variable stays as it is if its initializer does. -/
lemma Variable.mapInitializer_self {v : Variable} {f : Expr → Expr}
    (h : ∀ e, v.initializer? = some e → f e = e) : v.mapInitializer f = v := by
  obtain ⟨_, _, _, _, declaration⟩ := v
  cases declaration with
  | none => rfl
  | some x => simp only [mapInitializer, Option.map_some, h x.initializer rfl]

/-- A field whose initializer the change fixes stays as it is. -/
lemma Field.mapInitializer_self {x : Field} {f : Expr → Expr}
    (h : ∀ e, x.initializer? = some e → f e = e) : x.mapInitializer f = x := by
  rw [mapInitializer, Variable.mapInitializer_self h]

lemma Declared.mapInitializer_self {d : Declared} {f : Expr → Expr}
    (h : ∀ e, d.base.initializer? = some e → f e = e) : d.mapInitializer f = d := by
  cases d with
  | field x => exact congrArg field (Field.mapInitializer_self h)
  | localVar v => exact congrArg localVar (Variable.mapInitializer_self h)

lemma Declared.mapInitializer_of_none {d : Declared} (h : d.base.declaration = none)
    (f : Expr → Expr) : d.mapInitializer f = d := by
  apply mapInitializer_self
  intro e he
  rw [Variable.initializer?, h] at he
  cases he

/-- With a declaration statement, a change of the initializer is a new declaration. -/
lemma Declared.mapInitializer_of_some {d : Declared} {x : Declaration}
    (h : d.base.declaration = some x) (f : Expr → Expr) :
    d.mapInitializer f = d.declare { x with initializer := f x.initializer } := by
  cases d with
  | field y =>
    simp only [Declared.base] at h
    simp only [mapInitializer, Field.mapInitializer, Variable.mapInitializer, h, Option.map_some,
      declare, Field.declare, Variable.declare]
  | localVar v =>
    simp only [Declared.base] at h
    simp only [mapInitializer, Variable.mapInitializer, h, Option.map_some, declare,
      Variable.declare]

/-- The initializer after a change is the changed one. -/
lemma Variable.initializer?_mapInitializer (f : Expr → Expr) (v : Variable) :
    (v.mapInitializer f).initializer? = v.initializer?.map f := by
  simp only [mapInitializer, initializer?, Option.map_map, Function.comp_def]

lemma Declared.base_mapInitializer (f : Expr → Expr) (d : Declared) :
    (d.mapInitializer f).base = d.base.mapInitializer f := by
  cases d <;> rfl

/-! ## Variables in reach of a body -/

section MapIdx

variable {α : Type}

lemma mapIdx_unchanged (list : List α) : (list.mapIdx fun _ x => x) = list :=
  List.ext_getElem? (by simp)

/-- Changing an element where it stands, and then each one as often as `count` says. -/
lemma mapIdx_modify (f : α → α) (list : List α) (i : Nat) (count count' : Nat → Nat)
    (hi : count' i = count i + 1) (hj : ∀ j, i ≠ j → count' j = count j) :
    ((list.modify i f).mapIdx fun j x => f^[count j] x) =
      list.mapIdx fun j x => f^[count' j] x := by
  refine List.ext_getElem? fun j => ?_
  rw [List.getElem?_mapIdx, List.getElem?_mapIdx, List.getElem?_modify]
  cases list[j]? with
  | none => rfl
  | some x =>
    by_cases h : i = j
    · subst h
      simp [hi]
    · simp [h, hj j h]

end MapIdx

namespace Scope

variable {scope : Scope} {slot : VarSlot} {d : Declared} {f : Expr → Expr}

/-- Changes the initializer of the variable in a slot. -/
def touch (f : Expr → Expr) (scope : Scope) : VarSlot → Scope
  | .field id =>
    if id.owner = scope.owner then
      { scope with fields := scope.fields.modify id.index (Field.mapInitializer f) }
    else scope
  | .localVar i => { scope with locals := scope.locals.modify i (Variable.mapInitializer f) }

/-- To put a variable back with a changed initializer is to change it in its place. -/
lemma store_mapInitializer (h : scope.resolve? slot = some d) :
    scope.store slot (d.mapInitializer f) = scope.touch f slot := by
  cases slot with
  | field id =>
    rw [resolve?, Option.ite_none_right_eq_some, Option.map_eq_some_iff] at h
    obtain ⟨howner, x, hx, rfl⟩ := h
    rw [touch, if_pos howner, List.modify_eq_set_getElem?, hx]
    rfl
  | localVar i =>
    rw [resolve?, Option.map_eq_some_iff] at h
    obtain ⟨x, hx, rfl⟩ := h
    rw [touch, List.modify_eq_set_getElem?, hx]
    rfl

/-- Touching a slot changes the initializer of the variable there and no other one. -/
lemma resolve?_touch (f : Expr → Expr) (scope : Scope) (slot slot' : VarSlot) :
    (scope.touch f slot).resolve? slot' =
      (scope.resolve? slot').map (if slot' = slot then Declared.mapInitializer f else id) := by
  -- Two slots stand for the same variable only if they are equal, of whichever kind they are.
  cases slot with
  | localVar i =>
    cases slot' with
    | field id =>
      rw [if_neg (by simp), Option.map_id]
      rfl
    | localVar j =>
      by_cases h : i = j
      · cases hv : scope.locals[j]? <;> simp [touch, resolve?, h, hv, Declared.mapInitializer]
      · simp [touch, resolve?, h, Ne.symm h]
  | field id =>
    by_cases howner : id.owner = scope.owner
    · cases slot' with
      | localVar j => simp [touch, resolve?, howner]
      | field id' =>
        obtain ⟨owner, i⟩ := id
        obtain ⟨owner', j⟩ := id'
        by_cases h : i = j
        · cases hf : scope.fields[j]? <;> simp_all [touch, resolve?, Declared.mapInitializer]
        · simp_all [touch, resolve?, Ne.symm h]
    · -- A field of another type is not in reach, whichever slot is looked up.
      have hself : scope.touch f (.field id) = scope := by rw [touch, if_neg howner]
      rw [hself]
      by_cases h : slot' = .field id
      · simp [h, resolve?, howner]
      · simp [h]

/-- A variable whose initializer stays is put back as it was. -/
lemma touch_self (h : scope.resolve? slot = some d)
    (hf : ∀ e, d.base.initializer? = some e → f e = e) : scope.touch f slot = scope := by
  rw [← store_mapInitializer h, Declared.mapInitializer_self hf, store_resolve h]

@[simp] lemma owner_touch : (scope.touch f slot).owner = scope.owner := by
  cases slot with
  | field id =>
    rw [touch]
    split <;> rfl
  | localVar i => rfl

/-- No variable comes or goes when an initializer changes. -/
lemma length_touch :
    (scope.touch f slot).fields.length = scope.fields.length ∧
      (scope.touch f slot).locals.length = scope.locals.length := by
  cases slot with
  | field id =>
    rw [touch]
    split
    · exact ⟨List.length_modify .., rfl⟩
    · exact ⟨rfl, rfl⟩
  | localVar i => exact ⟨rfl, List.length_modify ..⟩

/-- The fault of an anchor that does not resolve. -/
def dangling? (scope : Scope) (a : Anchor) : Option Fault :=
  match scope.resolve? a.slot with
  | some _ => none
  | none => some (.danglingSlot a.slot a.info)

/-- Whether an anchor resolves depends only on how many variables there are. -/
lemma dangling?_congr {scope' : Scope} (howner : scope'.owner = scope.owner)
    (hfields : scope'.fields.length = scope.fields.length)
    (hlocals : scope'.locals.length = scope.locals.length) :
    scope'.dangling? = scope.dangling? := by
  funext a
  obtain ⟨info, slot⟩ := a
  cases slot with
  | field id =>
    by_cases h : id.owner = scope.owner
    · by_cases hlt : id.index < scope.fields.length
      · simp [dangling?, resolve?, howner, hfields, h, hlt]
      · simp [dangling?, resolve?, howner, hfields, h, hlt]
    · simp [dangling?, resolve?, howner, h]
  | localVar i =>
    by_cases hlt : i < scope.locals.length
    · simp [dangling?, resolve?, hlocals, hlt]
    · simp [dangling?, resolve?, hlocals, hlt]

/-- Which anchor is dangling does not depend on initializers. -/
lemma dangling?_touch : (scope.touch f slot).dangling? = scope.dangling? :=
  dangling?_congr owner_touch length_touch.1 length_touch.2

/-- Each variable is changed once for each time that its slot is among those touched. -/
theorem foldl_touch (f : Expr → Expr) (slots : List VarSlot) (scope : Scope) :
    slots.foldl (touch f) scope =
      { owner := scope.owner
        fields := scope.fields.mapIdx fun i x =>
          (Field.mapInitializer f)^[slots.count (.field ⟨scope.owner, i⟩)] x
        locals := scope.locals.mapIdx fun i x =>
          (Variable.mapInitializer f)^[slots.count (.localVar i)] x } := by
  induction slots generalizing scope with
  | nil =>
    simp [mapIdx_unchanged]
  | cons slot rest ih =>
    rw [List.foldl_cons, ih, owner_touch]
    -- The head counts for one variable, and not for any other.
    cases slot with
    | localVar i =>
      have hlocals := mapIdx_modify (Variable.mapInitializer f) scope.locals i
        (fun j => rest.count (.localVar j)) (fun j => (.localVar i :: rest).count (.localVar j))
        (by simp) (by intro j hj; simp [hj])
      simp only [touch, hlocals, List.count_cons_of_ne (by simp : VarSlot.localVar i ≠ .field _)]
    | field id =>
      by_cases howner : id.owner = scope.owner
      · have hfields := mapIdx_modify (Field.mapInitializer f) scope.fields id.index
          (fun j => rest.count (.field ⟨scope.owner, j⟩))
          (fun j => (.field id :: rest).count (.field ⟨scope.owner, j⟩))
          (by simp [← howner]) (by
            intro j hj
            have hne : VarSlot.field id ≠ .field ⟨scope.owner, j⟩ := by
              rintro ⟨⟩
              exact hj rfl
            simp [List.count_cons_of_ne hne])
        simp only [touch, if_pos howner, hfields,
          List.count_cons_of_ne (by simp : VarSlot.field id ≠ .localVar _)]
      · -- A field of another type is not in reach, and its slot is no count of a field here.
        have hne (j : Nat) : VarSlot.field id ≠ .field ⟨scope.owner, j⟩ := by
          rintro ⟨⟩
          exact howner rfl
        simp only [touch, if_neg howner, List.count_cons_of_ne (hne _),
          List.count_cons_of_ne (by simp : VarSlot.field id ≠ .localVar _)]

end Scope

/-! ## Methods and types -/

namespace Method

/-- The slots of the anchors in a method's body. -/
def slots (m : Method) : List VarSlot := m.anchors.map (·.slot)

/-- Rewrites the expressions of a method's body, and the initializer of each local variable once
for each of its anchors. -/
def rewrite (g : Expr → Option Expr) (m : Method) : Method :=
  { m with
    body := m.body.map (Block.mapExpr (Expr.rewrite g))
    locals := m.locals.mapIdx fun i v =>
      (Variable.mapInitializer (Expr.rewrite g))^[m.slots.count (.localVar i)] v }

lemma rewrite_of_none {m : Method} (h : m.body = none) (g : Expr → Option Expr) :
    m.rewrite g = m := by
  have hslots : m.slots = [] := by rw [slots, anchors, h, List.map_nil]
  obtain ⟨⟩ := m
  subst h
  simp [rewrite, hslots, mapIdx_unchanged]

/-- The number of anchors for the field at an index in a method's body. -/
def visitsOf (index : Nat) (m : Method) : Nat := m.slots.count (.field ⟨m.owner, index⟩)

/-- The fault of the first anchor in a method that does not resolve, in a type with these fields. -/
def dangling? (fields : List Field) (m : Method) : Option Fault :=
  m.anchors.findSome? (Scope.dangling? ⟨m.owner, fields, m.locals⟩)

/-- Which anchor of a method is dangling depends on the number of fields only. -/
lemma dangling?_congr {fields fields' : List Field} (h : fields'.length = fields.length) :
    dangling? fields' = dangling? fields := by
  funext m
  have hscope : Scope.dangling? ⟨m.owner, fields', m.locals⟩ =
      Scope.dangling? ⟨m.owner, fields, m.locals⟩ := Scope.dangling?_congr rfl h rfl
  rw [dangling?, dangling?, hscope]

end Method

namespace DeclaredType

/-- The fault of the first anchor of a type that does not resolve. -/
def dangling? (t : DeclaredType) : Option Fault := t.methods.findSome? (Method.dangling? t.fields)

/-- Rewrites the methods of a type, and the initializer of each field once for each of its
anchors. -/
def rewrite (g : Expr → Option Expr) (t : DeclaredType) : DeclaredType :=
  { t with
    fields := t.fields.mapIdx fun i x =>
      (Field.mapInitializer (Expr.rewrite g))^[(t.methods.map (Method.visitsOf i)).sum] x
    methods := t.methods.map (Method.rewrite g) }

end DeclaredType
end DeclIR
