import DeclIR.Proofs.Traversal.Observation
import DeclIR.Proofs.Traversal.Tree

/-!
# The calls of a traversal

A watcher is a visitor that does nothing but look: its hooks change its own state only, and each
first hook answers whether the parts of its node are to be visited.  The answer may depend on
everything the watcher has been shown until then.

A traversal by a watcher makes just the calls that `Program.calls` lists, in this order
(`Program.traverse_of_watches`).
-/

namespace DeclIR

open Visit

/-- A visitor that only looks: it answers a call, and goes on from one state to the next. -/
structure Watcher (σ : Type) where
  answer : σ → Call → Bool
  next : σ → Call → σ

namespace Watcher

variable {σ : Type} (w : Watcher σ)

/-- The state after some calls. -/
def told (own : σ) (calls : List Call) : σ := calls.foldl w.next own

/-- The answer to a call, given the calls before. -/
def answers (own : σ) (seen : List Call) (call : Call) : Bool := w.answer (w.told own seen) call

/-- A watcher as an observer. -/
def observer : Observer σ where
  pre x c := fun own => .ok (w.answer own (.at .pre x c)) (w.next own (.at .pre x c))
  post x c := fun own => .ok () (w.next own (.at .post x c))

end Watcher

/-- The hooks of a visitor are those of a watcher. -/
def Visitor.Watches {σ : Type} (v : Visitor σ) (w : Watcher σ) : Prop := v.Observes w.observer

/-- The context shows these surroundings, and that nothing has been changed. -/
structure Context.Shows (c : Context) (s : Surroundings) : Prop where
  ancestry_eq : c.ancestry = s.ancestry
  enclosingType_eq : c.enclosingType = s.enclosingType
  not_changed : c.changed = false

/-- The context is that of a node in these surroundings. -/
structure Context.IsAt (c : Context) (s : Surroundings) (x : Node) (slot : Slot) : Prop where
  shows : c.Shows (s.inside x)
  slot_eq : c.slot? = some slot

namespace Context

variable {c : Context} {s : Surroundings} {x : Node} {slot : Slot}

/-- Any node but a type is entered by its frame alone. -/
lemma Shows.enter (slot : Slot) (hc : c.Shows s)
    (hx : x.enclosing? s.enclosingType = s.enclosingType) :
    (c.enter x.kind slot).IsAt s x slot where
  shows := {
    ancestry_eq := by
      show x.kind :: c.ancestry = x.kind :: s.ancestry
      rw [hc.ancestry_eq]
    enclosingType_eq := by
      show c.enclosingType = x.enclosing? s.enclosingType
      rw [hc.enclosingType_eq, hx]
    not_changed := hc.not_changed }
  slot_eq := rfl

lemma Shows.enter_expr (hc : c.Shows s) (e : Expr) :
    (c.enter e.kind .expression).IsAt s (.expr e) .expression :=
  hc.enter (x := .expr e) .expression rfl

/-- A type is the one around its own parts. -/
lemma Shows.insideType (hc : c.Shows s) (t : DeclaredType) :
    (Observer.insideType c t).IsAt s (.type t) .fixed where
  shows := {
    ancestry_eq := by
      show _ :: c.ancestry = _ :: s.ancestry
      rw [hc.ancestry_eq]
      rfl
    enclosingType_eq := rfl
    not_changed := hc.not_changed }
  slot_eq := rfl

lemma IsAt.call_eq (hc : c.IsAt s x slot) (phase : Phase) :
    Call.at phase x c = s.call phase x slot := by
  have hremove : c.canRemove = decide (slot = .statement) := by
    simp [Context.canRemove, hc.slot_eq]
  unfold Call.at Surroundings.call
  rw [hc.shows.ancestry_eq, hc.shows.enclosingType_eq, hc.shows.not_changed, hremove]

end Context

/-! ## What a watcher is told -/

section FollowsTrees

variable {σ : Type} {w : Watcher σ} {own : σ} {s : Surroundings} {c : Context}

/-- After any calls, the computation tells the watcher of the calls for these trees, and does not
fail. -/
def FollowsTrees (w : Watcher σ) (own : σ) (s : Surroundings) (m : EStateM Fault σ Unit)
    (forest : List Tree) : Prop :=
  ∀ seen, m (w.told own seen) =
    .ok () (w.told own (seen ++ forestCalls (w.answers own) s seen forest))

namespace FollowsTrees

lemma pure : FollowsTrees w own s (pure ()) [] := by
  intro seen
  simp only [forestCalls, List.append_nil]
  rfl

/-- Following goes through a sequence: the second account reacts to all the calls before it. -/
lemma bind {m l : EStateM Fault σ Unit} {a b : List Tree} (hm : FollowsTrees w own s m a)
    (hl : FollowsTrees w own s l b) : FollowsTrees w own s (m >>= fun _ => l) (a ++ b) := by
  intro seen
  rw [EStateM_bind_apply, hm seen]
  show l _ = _
  rw [hl, forestCalls_append, List.append_assoc]

/-- One tree after the other. -/
lemma forM {α : Type} {list : List α} {m : α → EStateM Fault σ Unit} {trees : α → List Tree}
    (h : ∀ a ∈ list, FollowsTrees w own s (m a) (trees a)) :
    FollowsTrees w own s (list.forM m) (list.flatMap trees) := by
  induction list with
  | nil => exact pure
  | cons a rest ih =>
    rw [List.forM, List.flatMap_cons]
    exact (h a List.mem_cons_self).bind (ih fun b hb => h b (List.mem_cons_of_mem a hb))

/-- A node has a call of its own before and after those of its parts. -/
lemma node {x : Node} {slot : Slot} {m : EStateM Fault σ Unit} {parts : List Tree}
    (hc : c.IsAt s x slot) (hparts : FollowsTrees w own (s.inside x) m parts) :
    FollowsTrees w own s (w.observer.node x c m) [.node x slot parts] := by
  intro seen
  have hpre : w.observer.pre x c (w.told own seen) =
      .ok (w.answers own seen (s.call .pre x slot))
        (w.told own (seen ++ [s.call .pre x slot])) := by
    simp only [Watcher.observer, hc.call_eq, Watcher.answers, Watcher.told, List.foldl_append,
      List.foldl_cons, List.foldl_nil]
  have hpost (calls : List Call) : w.observer.post x c (w.told own calls) =
      .ok () (w.told own (calls ++ [s.call .post x slot])) := by
    simp only [Watcher.observer, hc.call_eq, Watcher.told, List.foldl_append, List.foldl_cons,
      List.foldl_nil]
  simp only [Observer.node, EStateM_bind_apply, hpre, forestCalls, Tree.calls, List.append_nil]
  -- The answer of the first call decides whether the parts are called for.
  cases h : w.answers own seen (s.call .pre x slot) with
  | true =>
    simp only [if_true, EStateM_bind_apply, hparts (seen ++ [s.call .pre x slot]), hpost]
    simp
  | false =>
    -- The second hook is called although the parts are left out.
    show w.observer.post x c _ = _
    rw [hpost]
    simp

/-! ### Expressions and statements -/

/-- The account of an expression calls the watcher by the expression's tree. -/
lemma expr (e : Expr) : ∀ {s : Surroundings} {c : Context}, c.Shows s →
    FollowsTrees w own s (w.observer.expr c e) [e.tree] := by
  induction e with
  | instanceField i f r ih =>
    intro s c hc
    have hat := hc.enter_expr (.instanceField i f r)
    exact node hat (ih hat.shows)
  | binary i op l r ihl ihr =>
    intro s c hc
    have hat := hc.enter_expr (.binary i op l r)
    exact node hat ((ihl hat.shows).bind (ihr hat.shows))
  | _ =>
    intro s c hc
    exact node (hc.enter_expr _) pure

lemma initializer (d : Declared) (hc : c.Shows s) :
    FollowsTrees w own s (w.observer.initializer c d) d.trees := by
  unfold Observer.initializer Declared.trees Variable.initializer?
  cases d.base.declaration with
  | none => exact pure
  | some x => exact expr x.initializer hc

/-- An anchor leads to the initializer of the variable it stands for. -/
lemma anchor {scope : Scope} {info : Provenance} {slot : VarSlot}
    (h : (scope.resolve? slot).isSome) (hc : c.Shows s) :
    FollowsTrees w own s (w.observer.anchor scope (c.enter .declaration .statement) info slot)
      ((scope.resolve? slot).toList.map (Declared.anchorTree slot info)) := by
  obtain ⟨d, hd⟩ := Option.isSome_iff_exists.mp h
  have hat := hc.enter (x := .declaration slot info d) .statement rfl
  unfold Observer.anchor
  rw [hd]
  exact node hat (initializer d hat.shows)

variable {scope : Scope}

mutual

/-- The account of a statement whose anchors resolve calls the watcher by the statement's trees. -/
lemma stmt {s : Surroundings} {c : Context} (hc : c.Shows s) : ∀ x : Stmt,
    (∀ a ∈ x.anchors, (scope.resolve? a.slot).isSome) →
    FollowsTrees w own s (w.observer.stmt scope (c.enter x.kind .statement) x) (x.trees scope)
  | .declare info slot, h => anchor (h ⟨info, slot⟩ (by simp [Stmt.anchors])) hc
  | .eval i e, _ => by
    have hat := hc.enter (x := .stmt (.eval i e)) .statement rfl
    exact node hat (expr e hat.shows)
  | .ret i (some e), _ => by
    have hat := hc.enter (x := .stmt (.ret i (some e))) .statement rfl
    exact node hat (expr e hat.shows)
  | .ret i none, _ => node (hc.enter (x := .stmt (.ret i none)) .statement rfl) pure
  | .branch i cond onTrue onFalse, h => by
    have hat := hc.enter (x := .stmt (.branch i cond onTrue onFalse)) .statement rfl
    have htrue := block .fixed hat.shows onTrue fun a ha => h a (by
      rw [Stmt.anchors]
      exact List.mem_append_left _ ha)
    have hfalse := alternative hat.shows onFalse fun a ha => h a (by
      rw [Stmt.anchors]
      exact List.mem_append_right _ ha)
    exact node hat ((expr cond hat.shows).bind (htrue.bind hfalse))
  | .block b, h => block .statement hc b (by rwa [Stmt.anchors] at h)

lemma block {s : Surroundings} {c : Context} (slot : Slot) (hc : c.Shows s) : ∀ b : BlockOf Stmt,
    (∀ a ∈ Block.anchors b, (scope.resolve? a.slot).isSome) →
    FollowsTrees w own s (w.observer.block scope (c.enter .block slot) b)
      [Block.tree scope slot b]
  | ⟨info, list⟩, h => by
    have hat := hc.enter (x := .block ⟨info, list⟩) slot rfl
    exact node hat (stmts hat.shows list (by rwa [Block.anchors] at h))

lemma alternative {s : Surroundings} {c : Context} (hc : c.Shows s) :
    ∀ b : Option (BlockOf Stmt), (∀ a ∈ elseAnchors b, (scope.resolve? a.slot).isSome) →
    FollowsTrees w own s (w.observer.alternative scope c b) (elseTrees scope b)
  | none, _ => pure
  | some b, h => block .fixed hc b (by rwa [elseAnchors] at h)

/-- The account of a statement list calls the watcher by the trees of its statements, in order. -/
lemma stmts {s : Surroundings} {c : Context} (hc : c.Shows s) : ∀ list : List Stmt,
    (∀ a ∈ stmtsAnchors list, (scope.resolve? a.slot).isSome) →
    FollowsTrees w own s (w.observer.stmts scope c list) (stmtsTrees scope list)
  | [], _ => pure
  | x :: rest, h => by
    rw [stmtsAnchors] at h
    have hx := stmt hc x fun a ha => h a (List.mem_append_left _ ha)
    have hrest := stmts hc rest fun a ha => h a (List.mem_append_right _ ha)
    exact hx.bind hrest

end

/-! ### Declarations -/

lemma tags (list : List Tag) (hc : c.Shows s) :
    FollowsTrees w own s (w.observer.tags c list) (list.map Tag.tree) := by
  rw [← List.flatMap_singleton' (list.map Tag.tree), List.flatMap_map]
  exact forM fun t _ => node (hc.enter (x := .tag t) .fixed rfl) pure

lemma field (f : Field) (hc : c.Shows s) :
    FollowsTrees w own s (w.observer.field c f) [f.tree] := by
  have hat := hc.enter (x := .field f) .fixed rfl
  exact node hat (tags f.tags hat.shows)

lemma parameters (list : List Variable) (hc : c.Shows s) :
    FollowsTrees w own s (list.forM (w.observer.parameter c))
      (list.map Variable.parameterTree) := by
  rw [← List.flatMap_singleton' (list.map Variable.parameterTree), List.flatMap_map]
  exact forM fun v _ => node (hc.enter (x := .parameter v) .fixed rfl) pure

lemma body {fields : List Field} {m : Method}
    (h : ∀ a ∈ m.anchors, ((m.scope fields).resolve? a.slot).isSome) (hc : c.Shows s) :
    FollowsTrees w own s (w.observer.body fields c m)
      (m.body.toList.map (Block.tree (m.scope fields) .fixed)) := by
  unfold Method.anchors at h
  unfold Observer.body
  cases hb : m.body with
  | none => exact pure
  | some b =>
    rw [hb] at h
    exact block .fixed hc b h

/-- The account of a method calls the watcher by the method's tree. -/
lemma method {fields : List Field} {m : Method}
    (h : ∀ a ∈ m.anchors, ((m.scope fields).resolve? a.slot).isSome) (hc : c.Shows s) :
    FollowsTrees w own s (w.observer.method fields c m) [m.tree fields] := by
  have hat := hc.enter (x := .method m) .fixed rfl
  unfold Method.tree
  rw [List.append_assoc]
  exact node hat ((tags m.tags hat.shows).bind
    ((parameters m.parameters hat.shows).bind (body h hat.shows)))

/-- The account of a type calls the watcher by the type's tree. -/
lemma type {t : DeclaredType}
    (h : ∀ m ∈ t.methods, ∀ a ∈ m.anchors, ((m.scope t.fields).resolve? a.slot).isSome)
    (hc : c.Shows s) : FollowsTrees w own s (w.observer.type c t) [t.tree] := by
  have hat := hc.insideType t
  have hfields : FollowsTrees w own _ (t.fields.forM (w.observer.field _)) _ :=
    forM fun f _ => field f hat.shows
  have hmethods : FollowsTrees w own _ (t.methods.forM (w.observer.method t.fields _)) _ :=
    forM fun m hm => method (h m hm) hat.shows
  unfold DeclaredType.tree
  rw [List.append_assoc, ← List.flatMap_singleton' (t.fields.map Field.tree), List.flatMap_map,
    ← List.flatMap_singleton' (t.methods.map (Method.tree t.fields)), List.flatMap_map]
  exact node hat ((tags t.tags hat.shows).bind (hfields.bind hmethods))

/-- The account of a program that resolves calls the watcher by the program's forest. -/
lemma program {p : Program} (h : p.Resolves) :
    FollowsTrees w own {} (w.observer.program p) p.forest := by
  have hc : ({} : Context).Shows {} := ⟨rfl, rfl, rfl⟩
  unfold Program.forest
  rw [← List.flatMap_singleton' (p.types.map DeclaredType.tree), List.flatMap_map]
  exact forM fun t ht => type (h t ht) hc

end FollowsTrees
end FollowsTrees

/-- A traversal by a visitor that only looks ends where the calls for the program's tree lead it. -/
lemma Program.traverse_eq_calls {σ : Type} {v : Visitor σ} {w : Watcher σ} (hv : v.Watches w)
    {p : Program} (hp : p.Resolves) (own : σ) :
    p.traverse v own = .ok () ⟨p, {}, w.told own (p.calls (w.answers own))⟩ := by
  have hobserved : FollowsTrees w own {} _ _ := FollowsTrees.program hp
  have hwalk := hv.walkProgram p own
  have hcalls := hobserved []
  rw [show w.told own [] = own from rfl, List.nil_append] at hcalls
  rw [hcalls] at hwalk
  exact hwalk

/-- A traversal by a visitor that only looks makes the calls for the nodes of the program's tree, in
order, each with the surroundings of its node; it leaves the program and the context as they were.
Each node that is reached has one call before and one after those for the nodes inside of it. -/
theorem Program.traverse_of_watches {σ : Type} {v : Visitor σ} {w : Watcher σ}
    (hv : v.Watches w) {p : Program} (hp : p.Resolves) (own : σ) :
    p.traverse v own = .ok () ⟨p, {}, w.told own (p.calls (w.answers own))⟩ ∧
      Nested {} (p.calls (w.answers own)) :=
  ⟨p.traverse_eq_calls hv hp own, nested_forestCalls (w.answers own) {} [] p.forest⟩

/-! ## Taking notes -/

/-- The visitor that notes each call of its two general hooks, and answers from its notes. -/
def noteTaker (answer : List Glimpse → Bool) : Visitor (List Glimpse) where
  visitNode kind info := do
    let s ← get
    let notes := s.own ++ [⟨⟨s.context.ancestry, s.context.enclosingType⟩, .pre, kind, info⟩]
    modify fun s => { s with own := notes }
    return answer notes
  endVisitNode kind info := do
    let s ← get
    let notes := s.own ++ [⟨⟨s.context.ancestry, s.context.enclosingType⟩, .post, kind, info⟩]
    modify fun s => { s with own := notes }

/-- The watcher that notes what it is told. -/
def Watcher.noteTaker (answer : List Glimpse → Bool) : Watcher (List Glimpse) where
  answer notes call := answer (notes ++ [call.glimpse])
  next notes call := notes ++ [call.glimpse]

/-- Every hook of the note taker falls back to a general one. -/
theorem noteTaker_watches (answer : List Glimpse → Bool) :
    (noteTaker answer).Watches (Watcher.noteTaker answer) where
  keepTags := rfl
  visitType := rfl
  endVisitType := rfl
  visitField := rfl
  endVisitField := rfl
  visitMethod := rfl
  endVisitMethod := rfl
  visitParameter := rfl
  endVisitParameter := rfl
  visitTag _ := rfl
  endVisitTag _ := rfl
  visitBlock := rfl
  endVisitBlock := rfl
  visitDeclaration _ _ := rfl
  endVisitDeclaration _ _ := rfl
  visitStmt := rfl
  endVisitStmt := rfl
  visitExpr := rfl
  endVisitExpr := rfl

/-- A class with an initialized field, and a method that declares a local variable in a branch. -/
def Program.withBranch : Program :=
  let field := Field.new .synthetic (.ofChar 'v') 0 (.primitive .int) true .plain
  let sum := Expr.binary .synthetic .add (.staticField .synthetic ⟨0, 0⟩)
    (.literal .synthetic (.int 1))
  let onTrue : Block := ⟨.synthetic, [.declare .synthetic (.localVar 0)]⟩
  let method : Method :=
    { info := .synthetic, name := "m", owner := 0, isStatic := false
      returnType := .primitive .void
      parameters := [⟨.synthetic, .ofChar 'p', .primitive .boolean, false, none⟩]
      locals := [⟨.synthetic, .ofChar 'x', .primitive .int, false, none⟩]
      body := some ⟨.synthetic, [.branch .synthetic (.parameter .synthetic 0) onTrue none]⟩ }
  let type := (DeclaredType.new .synthetic 0 "C" .classType none).insertField
    (field.declare ⟨.synthetic, sum⟩)
  ⟨[{ type with tags := [⟨.synthetic, "A"⟩], methods := type.methods ++ [method] }]⟩

/-- The notes of a visitor that goes into no more than three blocks, so that the branch of the
method is closed at once and the local variable's anchor is not visited. -/
theorem traverse_noteTaker_withBranch :
    Program.withBranch.Resolves ∧ ∃ notes,
      Program.withBranch.traverse (noteTaker fun notes =>
        notes.countP (fun g => g.phase = .pre ∧ g.kind = .block) ≤ 3) [] =
          .ok () ⟨.withBranch, {}, notes⟩ ∧
      notes.map (fun g => (g.phase, g.kind)) =
        [(.pre, .declaredType), (.pre, .tag), (.post, .tag), (.pre, .field), (.post, .field),
         (.pre, .method), (.pre, .block), (.pre, .declaration), (.pre, .binary),
         (.pre, .fieldRef), (.post, .fieldRef), (.pre, .literal), (.post, .literal),
         (.post, .binary), (.post, .declaration), (.post, .block), (.post, .method),
         (.pre, .method), (.pre, .block), (.post, .block), (.post, .method),
         (.pre, .method), (.pre, .parameter), (.post, .parameter), (.pre, .block),
         (.pre, .branch), (.pre, .parameterRef), (.post, .parameterRef), (.pre, .block),
         (.post, .block), (.post, .branch), (.post, .block), (.post, .method),
         (.post, .declaredType)] := by
  have hresolves : Program.withBranch.Resolves := by
    unfold Program.Resolves
    decide +kernel
  exact ⟨hresolves, _, (Program.traverse_of_watches (noteTaker_watches _) hresolves []).1,
    by decide +kernel⟩

end DeclIR
