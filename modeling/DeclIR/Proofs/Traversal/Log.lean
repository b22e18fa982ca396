import DeclIR.Proofs.Traversal.Wrapping

/-!
# Logs of traversals

A visitor of known conduct can keep a log of the calls of its hooks: for each call how far inside it
is made, for which node, and what it does to the context (`Visitor.logged`).  The log takes no part
in the walk (`Visitor.logged_erasesTo`).

In the log of a walk that succeeds each node that is visited has one call before and one after those
for the nodes inside of it, which are made further inside (`NodeVisit.Between`).  So what is left in
a node's frame are the edits requested in these two calls, and the frames around are as they were.
-/

namespace DeclIR

open Visit

variable {σ τ ε ν μ α β : Type}

/-! ## Logs -/

/-- The call of a hook as it is logged. -/
structure Entry where
  /-- The number of nodes on the path, with the one that the hook is called for. -/
  depth : Nat
  phase : Phase
  node : Node
  acts : List Act

/-- Logs the call of a hook. -/
def Visit.logging (a : Conduct σ) (phase : Phase) (x : ν → Node) (w : Visit σ ν α) :
    Visit (σ × List Entry) ν α :=
  zoom (·.map Prod.fst)
    (fun t s => ⟨t.node, t.context, (t.own, s.own.2 ++
      [⟨s.context.depth, phase, x s.node, a.hook phase (x s.node) s.context s.own.1⟩])⟩) w

/-- The logging of a hook reads the walk and writes to the log alone, so it erases to the walk. -/
lemma Visit.logging_erasesTo (a : Conduct σ) (phase : Phase) (x : ν → Node) (w : Visit σ ν α) :
    (w.logging a phase x).ErasesTo Prod.fst w := by
  intro s
  unfold logging zoom
  cases w (s.map Prod.fst) <;> rfl

/-- The visitor that also keeps a log. -/
def Visitor.logged (v : Visitor σ) (a : Conduct σ) : Visitor (σ × List Entry) :=
  v.wrap (fun _ _ phase x w => w.logging a phase x) fun _ w => beside w

/-- The log takes no part in the walk. -/
theorem Visitor.logged_erasesTo (v : Visitor σ) (a : Conduct σ) :
    (v.logged a).ErasesTo Prod.fst v :=
  wrap_erasesTo (fun _ _ phase x w => logging_erasesTo a phase x w) fun _ w => .of_beside w

/-! ## What is logged -/

/-- The entry is added to the log by a call that leads from one context to another. -/
structure Entry.Between (e : Entry) (c : Context) (l : List Entry) (c' : Context)
    (l' : List Entry) : Prop where
  depth_eq : e.depth = c.depth
  log_eq : l' = l ++ [e]
  frames_eq : c'.frames = c.frames.modifyHead (·.performAll e.acts)

/-- The calls for a node that is visited: one before those for the nodes inside, and one after. -/
structure NodeVisit where
  first : Entry
  inner : List Entry
  last : Entry

namespace NodeVisit

/-- All calls, in order. -/
def calls (x : NodeVisit) : List Entry := x.first :: x.inner ++ [x.last]

/-- What the two calls for the node itself do to the context. -/
def acts (x : NodeVisit) : List Act := x.first.acts ++ x.last.acts

/-- These are the calls for one node: the outer ones are made where the visit begins, the others
further inside.  Of the frames that are there the visit changes only the node's own. -/
structure Between (x : NodeVisit) (c : Context) (l : List Entry) (c' : Context)
    (l' : List Entry) : Prop where
  first_phase : x.first.phase = .pre
  first_depth : x.first.depth = c.depth
  inner_depth : ∀ e ∈ x.inner, c.depth < e.depth
  last_phase : x.last.phase = .post
  last_depth : x.last.depth = c.depth
  log_eq : l' = l ++ x.calls
  frames_eq : c'.frames = c.frames.modifyHead (·.performAll x.acts)

/-- Among the calls for a node that are made where the visit begins, only the first one is made
before the parts of the node. -/
lemma Between.filter_calls {x : NodeVisit} {c c' : Context} {l l' : List Entry}
    (h : x.Between c l c' l') :
    x.calls.filter (fun e => e.depth = c.depth && e.phase = .pre) = [x.first] := by
  have hinner : x.inner.filter (fun e => e.depth = c.depth && e.phase = .pre) = [] := by
    refine List.filter_eq_nil_iff.mpr fun e he => ?_
    have hdepth : e.depth ≠ c.depth := Nat.ne_of_gt (h.inner_depth e he)
    simp [hdepth]
  simp [calls, hinner, h.first_phase, h.first_depth, h.last_phase]

end NodeVisit

/-- Between the two contexts there are only calls further inside, and the path is the same. -/
structure Within (c : Context) (l : List Entry) (c' : Context) (l' : List Entry) : Prop where
  frames_eq : c'.frames = c.frames
  log : ∃ inner, l' = l ++ inner ∧ ∀ e ∈ inner, c.depth < e.depth

namespace Within

variable {c c' c'' : Context} {l l' l'' : List Entry}

lemma depth_eq (h : Within c l c' l') : c'.depth = c.depth := congrArg List.length h.frames_eq

lemma refl (c : Context) (l : List Entry) : Within c l c l := ⟨rfl, [], by simp, by simp⟩

/-- Staying within composes along a walk. -/
lemma trans (h : Within c l c' l') (h' : Within c' l' c'' l'') : Within c l c'' l'' := by
  obtain ⟨inner, rfl, hinner⟩ := h.log
  obtain ⟨inner', rfl, hinner'⟩ := h'.log
  refine ⟨h'.frames_eq.trans h.frames_eq, inner ++ inner', by simp, fun e he => ?_⟩
  rcases List.mem_append.mp he with he | he
  · exact hinner e he
  · exact h.depth_eq ▸ hinner' e he

/-- What happens to a node that is entered happens within the one around it. -/
lemma of_nodeVisit {x : NodeVisit} {kind : NodeKind} {slot : Slot}
    (h : x.Between (c.enter kind slot) l c' l') : Within c l c'.leave l' := by
  have hdepth : c.depth < (c.enter kind slot).depth := by
    rw [Context.depth_enter]
    exact Nat.lt_succ_self _
  refine ⟨?_, x.calls, h.log_eq, fun e he => ?_⟩
  · show c'.frames.tail = c.frames
    rw [h.frames_eq]
    rfl
  · rcases List.mem_append.mp he with he | he
    · rcases List.mem_cons.mp he with rfl | he
      · exact h.first_depth ▸ hdepth
      · exact Nat.lt_trans hdepth (h.inner_depth e he)
    · rw [List.mem_singleton.mp he, h.last_depth]
      exact hdepth

end Within

/-! ## Visits with a log -/

namespace Visit

/-- If the visit succeeds, it is one call of a hook, in this phase and for the node that it begins
with. -/
def Makes (log : τ → List Entry) (phase : Phase) (x : ν → Node) (w : Visit τ ν α) : Prop :=
  ∀ s a t, w s = .ok a t → ∃ e : Entry, e.phase = phase ∧ e.node = x s.node ∧
    e.Between s.context (log s.own) t.context (log t.own)

/-- If the visit succeeds, it consists of the calls for one node, where the node that it begins with
is the one of the first call. -/
def Calls (log : τ → List Entry) (P : ν → Node → Prop) (w : Visit τ ν Unit) : Prop :=
  ∀ s t, w s = .ok () t → ∃ x : NodeVisit, P s.node x.first.node ∧
    x.Between s.context (log s.own) t.context (log t.own)

/-- If the visit succeeds, it calls hooks only further inside. -/
def Stays (log : τ → List Entry) (w : Visit τ ν α) : Prop :=
  ∀ s a t, w s = .ok a t → Within s.context (log s.own) t.context (log t.own)

variable {log : τ → List Entry}

/-- A hook that performs its acts and is logged makes the entry of its phase and node. -/
lemma logging_makes {a : Conduct σ} {phase : Phase} {x : ν → Node} {w : Visit σ ν α}
    (hw : w.Performs fun n => a.hook phase (x n)) :
    (w.logging a phase x).Makes Prod.snd phase x := by
  intro s b u hrun
  obtain ⟨t, hrun', rfl⟩ := zoom_eq_ok_iff.mp hrun
  have hcontext := hw (s.map Prod.fst)
  rw [after_of_ok hrun'] at hcontext
  refine ⟨_, rfl, rfl, rfl, rfl, ?_⟩
  rw [hcontext]
  exact Context.frames_performAll ..

/-- With a further state, of which the visit does not know, the log is the same. -/
lemma Makes.beside {phase : Phase} {x : ν → Node} {w : Visit τ ν α} (hw : w.Makes log phase x) :
    (beside w : Visit (τ × ε) ν α).Makes (fun own => log own.1) phase x := by
  intro s a u hrun
  obtain ⟨t, hrun', rfl⟩ := zoom_eq_ok_iff.mp hrun
  exact hw _ _ _ hrun'

namespace Stays

lemma pure (a : α) : (pure a : Visit τ ν α).Stays log := by
  intro s b t hrun
  cases hrun
  exact .refl ..

lemma node : (node : Visit τ ν ν).Stays log := by
  intro s b t hrun
  cases hrun
  exact .refl ..

lemma setNode (n : ν) : (setNode n : Visit τ ν Unit).Stays log := by
  intro s b t hrun
  cases hrun
  exact .refl ..

/-- Staying goes through a sequence of walks. -/
lemma bind {w : Visit τ ν α} {f : α → Visit τ ν β} (hw : w.Stays log)
    (hf : ∀ a, (f a).Stays log) : (w >>= f).Stays log := by
  intro s b u hrun
  obtain ⟨a, t, hrun', hrun''⟩ := bind_eq_ok_iff.mp hrun
  exact (hw s a t hrun').trans (hf a t b u hrun'')

lemma node_bind {f : ν → Visit τ ν β} (hf : ∀ n, (f n).Stays log) :
    (Visit.node >>= f).Stays log := node.bind hf

lemma part {w : Visit τ μ α} (hw : w.Stays log) (x : μ) (put : μ → ν) :
    (part x put w).Stays log := by
  intro s a u hrun
  obtain ⟨t, hrun', rfl⟩ := zoom_eq_ok_iff.mp hrun
  exact hw _ _ _ hrun'

lemma beside {w : Visit τ ν α} (hw : w.Stays log) :
    (beside w : Visit (τ × ε) ν α).Stays fun own => log own.1 := by
  intro s a u hrun
  obtain ⟨t, hrun', rfl⟩ := zoom_eq_ok_iff.mp hrun
  exact hw _ _ _ hrun'

/-- A run that replaces each item by a segment calls hooks only further inside if each step does. -/
lemma eachSegment {w : Visit τ μ (List μ)} (hw : w.Stays log) : (eachSegment w).Stays log := by
  have hlist (l : List μ) (c : Context) (own : τ) (u : Site τ (List μ))
      (hrun : eachOf w l c own = .ok () u) : Within c (log own) u.context (log u.own) := by
    induction l generalizing c own u with
    | nil =>
      cases hrun
      exact .refl ..
    | cons x rest ih =>
      -- What the rest logs comes behind what this item has logged.
      obtain ⟨segment, s, t, hx, hrest, rfl⟩ := eachOf_cons_eq_ok_iff.mp hrun
      exact (hw _ _ _ hx).trans (ih _ _ t hrest)
  intro s _ u hrun
  exact hlist s.node s.context s.own u hrun

end Stays

/-- A node whose visit calls hooks for it and further inside is visited within the one around it. -/
lemma Calls.inFrame {P : ν → Node → Prop} {w : Visit τ ν Unit} (hw : w.Calls log P)
    (kind : NodeKind) (slot : Slot) : (inFrame kind slot w).Stays log := by
  intro s frame? u hrun
  obtain ⟨t, hrun', -, rfl⟩ := inFrame_eq_ok_iff.mp hrun
  obtain ⟨x, -, hx⟩ := hw _ t hrun'
  exact .of_nodeVisit hx

/-- Calls about nodes of one sort are calls about nodes of a wider one. -/
lemma Calls.weaken {P Q : ν → Node → Prop} {w : Visit τ ν Unit} (hw : w.Calls log P)
    (h : ∀ n first, P n first → Q n first) : w.Calls log Q := by
  intro s t hrun
  obtain ⟨x, hfirst, hx⟩ := hw s t hrun
  exact ⟨x, h _ _ hfirst, hx⟩

/-- A visit that first reads the node may use what it is. -/
lemma Calls.node_bind {P : ν → Node → Prop} {f : ν → Visit τ ν Unit}
    (hf : ∀ n, (f n).Calls log fun m first => m = n → P n first) :
    (Visit.node >>= f).Calls log P := by
  intro s t hrun
  obtain ⟨x, hfirst, hx⟩ := hf s.node s t hrun
  exact ⟨x, hfirst rfl, hx⟩

lemma Calls.part {P : μ → Node → Prop} {w : Visit τ μ Unit} (hw : w.Calls log P) (n : μ)
    (put : μ → ν) : (part n put w).Calls log fun _ => P n := by
  intro s u hrun
  obtain ⟨t, hrun', rfl⟩ := zoom_eq_ok_iff.mp hrun
  exact hw _ t hrun'

/-- A visit without calls is one within the node around it. -/
lemma Stays.inFrame_pure (kind : NodeKind) (slot : Slot) :
    (Visit.inFrame kind slot (Pure.pure ()) : Visit τ ν (Option Frame)).Stays log := by
  intro s frame? u hrun
  cases hrun
  exact .refl ..

/-- The calls for a node are those of its hooks with those for its parts between them. -/
lemma Calls.around {x y : ν → Node} {pre : Visit τ ν Bool} {parts post : Visit τ ν Unit}
    (hpre : pre.Makes log .pre x) (hparts : parts.Stays log) (hpost : post.Makes log .post y) :
    (around pre parts post).Calls log fun n first => first = x n := by
  intro s u hrun
  obtain ⟨descend, t, hrun', hrest⟩ := bind_eq_ok_iff.mp hrun
  -- Sites after the first hook (`t`), after the parts (`r`) and after the last hook (`u`).
  obtain ⟨first, hfirst_phase, hfirst_node, hfirst⟩ := hpre s _ t hrun'
  -- If the first hook declines, nothing is visited inside and `r` is `t`.
  have hdescend : ∃ r, Within t.context (log t.own) r.context (log r.own) ∧ post r = .ok () u := by
    cases descend with
    | false => exact ⟨t, .refl .., hrest⟩
    | true =>
      obtain ⟨_, r, hinner, hlast⟩ := bind_eq_ok_iff.mp hrest
      exact ⟨r, hparts _ _ _ hinner, hlast⟩
  obtain ⟨r, hwithin, hlast⟩ := hdescend
  obtain ⟨last, hlast_phase, -, hlast⟩ := hpost r _ u hlast
  obtain ⟨inner, hinner, hdeeper⟩ := hwithin.log
  have hdepth : t.context.depth = s.context.depth := by
    unfold Context.depth
    rw [hfirst.frames_eq, List.length_modifyHead]
  refine ⟨⟨first, inner, last⟩, hfirst_node, hfirst_phase, hfirst.depth_eq, ?_, hlast_phase, ?_,
    ?_, ?_⟩
  · rw [← hdepth]
    exact hdeeper
  · rw [hlast.depth_eq, hwithin.depth_eq, hdepth]
  · rw [hlast.log_eq, hinner, hfirst.log_eq]
    simp [NodeVisit.calls]
  · rw [hlast.frames_eq, hwithin.frames_eq, hfirst.frames_eq]
    cases s.context.frames with
    | nil => rfl
    | cons f outer => simp [NodeVisit.acts, Frame.performAll]

end Visit

/-! ## Walks over code -/

/-- Each hook of the visitor, when it succeeds, adds its call to the log. -/
def Visitor.Logs (v : Visitor τ) (log : τ → List Entry) : Prop :=
  v.Hooks fun _ _ phase x w => w.Makes log phase x

/-- A visitor that acts by a conduct logs each of its calls. -/
lemma Visitor.ActsBy.logs {v : Visitor σ} {a : Conduct σ} (hv : v.ActsBy a) :
    (v.logged a).Logs Prod.snd :=
  hv.hooks.wrap fun _ _ _ _ _ hw => logging_makes hw

/-- The node that the hooks are called for when a statement is visited. -/
def Stmt.ShownAs : Stmt → Node → Prop
  | .declare info slot, n => ∃ d, n = .declaration slot info d
  | .block b, n => n = .block b
  | s, n => n = .stmt s

namespace Visitor.Logs

variable {v : Visitor τ} {log : τ → List Entry} (hv : v.Logs log)
include hv

/-- At every depth the walk over an expression calls hooks only further inside. -/
lemma walkExprWithin (k : Nat) : (v.walkExprWithin k).Stays log := by
  induction k with
  | zero => exact .pure ()
  | succ k ih =>
    have hparts : (inOperands (v.walkExprWithin k)).Stays log := by
      unfold inOperands
      refine .node_bind fun e => ?_
      cases e with
      | instanceField info f receiver => exact ih.part _ _
      | binary info op lhs rhs =>
        exact ((ih.bind fun _ => .node).part _ _).bind fun lhs => ih.part _ _
      | _ => exact .pure ()
    unfold Visitor.walkExprWithin
    refine .node_bind fun e => ?_
    refine ((Calls.around hv.visitExpr hparts hv.endVisitExpr).inFrame _ _).bind fun frame? => ?_
    cases frame? with
    | none => exact .pure ()
    | some frame => exact .node_bind fun _ => .setNode _

lemma walkExpr : v.walkExpr.Stays log := by
  unfold Visitor.walkExpr
  exact .node_bind fun e => hv.walkExprWithin _

lemma walkInitializer : v.walkInitializer.Stays log := by
  unfold Visitor.walkInitializer
  refine .node_bind fun target => ?_
  cases target.base.declaration with
  | none => exact .pure ()
  | some d => exact hv.walkExpr.part _ _

/-- The calls at a declaration begin with one about the declaration that its slot resolves to. -/
lemma walkDeclaration (info : Provenance) (slot : VarSlot) :
    (v.walkDeclaration info slot).Calls (fun own => log own.1)
      fun _ first => ∃ d, first = .declaration slot info d := by
  intro s u hrun
  unfold Visitor.walkDeclaration at hrun
  obtain ⟨_, _, ⟨⟩, hrun'⟩ := bind_eq_ok_iff.mp hrun
  cases hd : s.own.2.resolve? slot with
  | none => simp [hd] at hrun'
  | some d =>
    simp only [hd] at hrun'
    obtain ⟨t, hanchor, rfl⟩ := zoom_eq_ok_iff.mp hrun'
    obtain ⟨x, hfirst, hx⟩ := Calls.around (hv.visitDeclaration slot info) hv.walkInitializer
      (hv.endVisitDeclaration slot info) _ t hanchor
    exact ⟨x, ⟨d, hfirst⟩, hx⟩

section Parts

variable {w : Visit (τ × Scope) Stmt Unit}
  (hw : ∀ kind slot, (inFrame kind slot w).Stays fun own => log own.1)
include hw

omit hv in
/-- A run over a statement list calls hooks only further inside. -/
lemma eachStmt : (eachStmt w).Stays fun own => log own.1 := by
  unfold Visitor.eachStmt
  refine .eachSegment (.node_bind fun x => (hw _ _).bind fun frame? => ?_)
  cases frame? with
  | none => exact .node_bind fun _ => .pure _
  | some frame => exact .node_bind fun _ => .pure _

lemma walkBlockBy :
    (v.walkBlockBy w).Calls (fun own => log own.1) fun b first => first = .block b := by
  have hparts : (inBlock w).Stays fun own => log own.1 := by
    unfold inBlock
    exact .node_bind fun b => (eachStmt hw).part _ _
  unfold Visitor.walkBlockBy
  exact .around hv.visitBlock.beside hparts hv.endVisitBlock.beside

lemma walkFixedBlockBy : (v.walkFixedBlockBy w).Stays fun own => log own.1 := by
  unfold Visitor.walkFixedBlockBy
  exact ((hv.walkBlockBy hw).inFrame _ _).bind fun _ => .pure ()

lemma inStmt : (v.inStmt w).Stays fun own => log own.1 := by
  have hexpr : (beside v.walkExpr : Visit (τ × Scope) Expr Unit).Stays fun own => log own.1 :=
    hv.walkExpr.beside
  have hblock := hv.walkFixedBlockBy hw
  unfold Visitor.inStmt
  refine .node_bind fun s => ?_
  cases s with
  | declare info slot => exact .pure ()
  | eval info e => exact hexpr.part _ _
  | ret info value =>
    cases value with
    | none => exact .pure ()
    | some e => exact hexpr.part _ _
  | branch info cond onTrue onFalse =>
    refine ((hexpr.bind fun _ => .node).part _ _).bind fun cond => ?_
    refine ((hblock.bind fun _ => .node).part _ _).bind fun onTrue => ?_
    cases onFalse with
    | none => exact .pure ()
    | some b => exact hblock.part _ _
  | block b => exact .pure ()

end Parts

/-- The calls of a statement begin with one about the statement, provided the walks below it stay.
-/
lemma walkStmtWithin_succ {k : Nat}
    (hk : ∀ kind slot, (inFrame kind slot (v.walkStmtWithin k)).Stays fun own => log own.1) :
    (v.walkStmtWithin (k + 1)).Calls (fun own => log own.1) Stmt.ShownAs := by
  have hstmt := Calls.around hv.visitStmt.beside (hv.inStmt hk) hv.endVisitStmt.beside
  unfold Visitor.walkStmtWithin
  refine .node_bind fun x => ?_
  cases x with
  | declare info slot => exact (hv.walkDeclaration info slot).weaken fun _ _ h _ => h
  | block b => exact ((hv.walkBlockBy hk).part b _).weaken fun _ _ h _ => h
  | _ =>
    refine hstmt.weaken ?_
    rintro _ _ h rfl
    exact h

/-- At every depth of nesting the walk over a statement, in its frame, calls hooks only further
inside. -/
lemma inFrame_walkStmtWithin (k : Nat) (kind : NodeKind) (slot : Slot) :
    (inFrame kind slot (v.walkStmtWithin k)).Stays fun own => log own.1 := by
  induction k generalizing kind slot with
  | zero => exact .inFrame_pure kind slot
  | succ k ih => exact (hv.walkStmtWithin_succ ih).inFrame kind slot

/-- A statement is visited by the calls for one node, and this node is the statement. -/
lemma walkStmt (k : Nat) :
    (v.walkStmtWithin (k + 1)).Calls (fun own => log own.1) Stmt.ShownAs :=
  hv.walkStmtWithin_succ (hv.inFrame_walkStmtWithin k)

end Visitor.Logs

end DeclIR
