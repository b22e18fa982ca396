import DeclIR.Traversal.Walk
import Mathlib.Tactic.Lemma

/-!
# Statements edited in place

A list of statements can be walked by position: the statement at the position is visited, the edits
requested for it are carried out on the list one after the other, and the walk goes on behind what
they have put in (`Visitor.eachStmtAt`).  While this goes on the list grows and shrinks, and
positions move.

`Visitor.eachStmt` looks at no positions, and does the same (`Visitor.eachStmt_eq_eachStmtAt`).  The
invariant is that the list begins with the segments of the statements visited so far, as many
elements as the position says, and that the statements behind them are as they were.
-/

namespace DeclIR

open Visit

/-! ## Edits at a position -/

section Splice

variable {α : Type} {x y : α} {front rest new : List α}

/-- The list with some elements put in at a position. -/
def spliceAt (i : Nat) (new xs : List α) : List α := xs.take i ++ new ++ xs.drop i

/-- Splicing at the end of a front puts the new items behind it. -/
lemma spliceAt_append : spliceAt front.length new (front ++ rest) = front ++ new ++ rest := by
  rw [spliceAt, List.take_left, List.drop_left]

/-- What is behind some elements can be exchanged without a look at these. -/
lemma set_append_cons : (front ++ x :: rest).set front.length y = front ++ y :: rest := by
  rw [List.set_append_right _ _ (Nat.le_refl _), Nat.sub_self, List.set_cons_zero]

/-- Removing the item behind a front joins the front to the rest. -/
lemma eraseIdx_append_cons : (front ++ x :: rest).eraseIdx front.length = front ++ rest := by
  rw [List.eraseIdx_append_of_length_le (Nat.le_refl _), Nat.sub_self, List.eraseIdx_cons_zero]

end Splice

namespace Frame

variable {f : Frame} {x : Stmt} {front rest stmts : List Stmt} {i : Nat}

/-- Removes the statement at a position or puts another one in its place, and says which position
is the next one. -/
def exchangeAt (f : Frame) (i : Nat) (stmts : List Stmt) : List Stmt × Nat :=
  match f.edit with
  | some .removeStmt => (stmts.eraseIdx i, i)
  | some (.replaceStmt s) => (stmts.set i s, i + 1)
  | _ => (stmts, i + 1)

/-- Carries out the edits of the statement at a position, and says at which position the statement
is that comes next. -/
def applyAt (f : Frame) (i : Nat) (stmts : List Stmt) : List Stmt × Nat :=
  let exchanged := f.exchangeAt (i + f.before.length) (spliceAt i f.before stmts)
  (spliceAt exchanged.2 f.after exchanged.1, exchanged.2 + f.after.length)

/-- The statement that a frame leaves of a statement, if it leaves one. -/
def kept (f : Frame) (s : Stmt) : List Stmt :=
  match f.edit with
  | some .removeStmt => []
  | some (.replaceStmt t) => [t]
  | _ => [s]

lemma segment_eq : f.segment x = f.before ++ f.kept x ++ f.after := rfl

/-- The exchange at a position leaves the kept statement there, or nothing, and says where the next
one stands. -/
lemma exchangeAt_append :
    f.exchangeAt front.length (front ++ x :: rest) =
      (front ++ f.kept x ++ rest, (front ++ f.kept x).length) := by
  rw [exchangeAt, kept]
  split
  · rw [eraseIdx_append_cons, List.append_nil]
  · rw [set_append_cons, List.append_assoc, List.length_append]
    rfl
  · rw [List.append_assoc, List.length_append]
    rfl

/-- The edits exchange the statement for its segment, and the next statement is the one behind
it. -/
lemma applyAt_append :
    f.applyAt front.length (front ++ x :: rest) =
      (front ++ f.segment x ++ rest, (front ++ f.segment x).length) := by
  have hbefore : spliceAt front.length f.before (front ++ x :: rest) =
      (front ++ f.before) ++ x :: rest := spliceAt_append
  have hsegment : front ++ f.segment x = front ++ f.before ++ f.kept x ++ f.after := by
    simp only [segment_eq, List.append_assoc]
  rw [applyAt, hbefore, ← List.length_append, exchangeAt_append, spliceAt_append, hsegment,
    ← List.length_append]

/-- However the edits change the list, one statement less is behind the next position. -/
lemma length_applyAt (hi : i < stmts.length) :
    (f.applyAt i stmts).1.length + i + 1 = stmts.length + (f.applyAt i stmts).2 := by
  -- The position cuts the list in two, with the statement in front of the second part.
  obtain ⟨front, x, rest, rfl, rfl⟩ :
      ∃ front x rest, stmts = front ++ x :: rest ∧ i = front.length := by
    refine ⟨stmts.take i, stmts[i], stmts.drop (i + 1), ?_, ?_⟩
    · rw [← List.drop_eq_getElem_cons hi, List.take_append_drop]
    · rw [List.length_take_of_le (Nat.le_of_lt hi)]
  rw [applyAt_append]
  simp only [List.length_append, List.length_cons]
  omega

end Frame

/-- The statements that take the place of one that was visited in this frame.  Without its frame a
statement stays. -/
def Stmt.leftBy (s : Stmt) : Option Frame → List Stmt
  | some f => f.segment s
  | none => [s]

/-! ## The walk -/

namespace Visitor

variable {τ : Type} {w : Visit (τ × Scope) Stmt Unit} {x : Stmt} {c : Context} {own : τ × Scope}
  {e : Fault} {t : Site (τ × Scope) Stmt}

/-- Visits the statement at a position of a list and those behind it, and applies the edits
requested for each to the list. -/
def eachStmtAt (w : Visit (τ × Scope) Stmt Unit) (i : Nat) (stmts : List Stmt) (c : Context)
    (own : τ × Scope) : EStateM.Result Fault (Site (τ × Scope) (List Stmt)) Unit :=
  if h : i < stmts.length then
    match inFrame stmts[i].kind .statement w ⟨stmts[i], c, own⟩ with
    | .error e t => .error e ⟨stmts.set i t.node, t.context, t.own⟩
    | .ok (some f) t =>
      -- What was visited is put back before the edits are made.
      let edited := f.applyAt i (stmts.set i t.node)
      eachStmtAt w edited.2 edited.1 t.context t.own
    | .ok none t => eachStmtAt w (i + 1) (stmts.set i t.node) t.context t.own
  else .ok () ⟨stmts, c, own⟩
termination_by stmts.length - i
decreasing_by
  · have hi : i < (stmts.set i t.node).length := by rwa [List.length_set]
    have hlength := f.length_applyAt hi
    rw [List.length_set] at hlength
    omega
  · rw [List.length_set]
    omega

/-- Where a statement fails, the run ends with the statements behind it untouched. -/
lemma eachStmt_cons_of_error (h : w ⟨x, c.enter x.kind .statement, own⟩ = .error e t)
    (rest : List Stmt) :
    eachStmt w ⟨x :: rest, c, own⟩ = .error e ⟨t.node :: rest, t.context, t.own⟩ := by
  unfold eachStmt eachSegment
  simp only [eachOf, bind_apply, node_apply, inFrame_apply, h]

/-- Where a statement succeeds, what its frame leaves stands before what the run makes of the rest.
-/
lemma eachStmt_cons_of_ok (h : w ⟨x, c.enter x.kind .statement, own⟩ = .ok () t)
    (rest : List Stmt) :
    eachStmt w ⟨x :: rest, c, own⟩ =
      match eachStmt w ⟨rest, t.context.leave, t.own⟩ with
      | .ok _ u =>
        .ok () ⟨t.node.leftBy t.context.frames.head? ++ u.node, u.context, u.own⟩
      | .error e u =>
        .error e ⟨t.node.leftBy t.context.frames.head? ++ u.node, u.context, u.own⟩ := by
  unfold eachStmt eachSegment
  -- The frame is the one entered for the statement, but a hook cannot take that for granted.
  cases hf : t.context.frames.head? with
  | none =>
    simp only [eachOf, bind_apply, node_apply, inFrame_apply, h, hf, pure_apply]
    generalize eachOf _ rest t.context.leave t.own = r
    cases r <;> rfl
  | some f =>
    simp only [eachOf, bind_apply, node_apply, inFrame_apply, h, hf, pure_apply]
    generalize eachOf _ rest t.context.leave t.own = r
    cases r <;> rfl

section Positions

variable {front rest : List Stmt}

/-- Behind the last statement the loop ends with nothing changed. -/
lemma eachStmtAt_length : eachStmtAt w front.length front c own = .ok () ⟨front, c, own⟩ := by
  rw [eachStmtAt, dif_neg (Nat.lt_irrefl _)]

/-- Where the statement at the position fails, the loop ends with the list around it untouched. -/
lemma eachStmtAt_of_error (h : w ⟨x, c.enter x.kind .statement, own⟩ = .error e t) :
    eachStmtAt w front.length (front ++ x :: rest) c own =
      .error e ⟨front ++ t.node :: rest, t.context, t.own⟩ := by
  have hi : front.length < (front ++ x :: rest).length := by simp
  have hx : (front ++ x :: rest)[front.length] = x := by simp
  rw [eachStmtAt, dif_pos hi]
  simp only [hx, inFrame_apply, h, set_append_cons]

/-- Where the statement at the position succeeds, the loop goes on behind what its frame leaves
there. -/
lemma eachStmtAt_of_ok (h : w ⟨x, c.enter x.kind .statement, own⟩ = .ok () t) :
    eachStmtAt w front.length (front ++ x :: rest) c own =
      eachStmtAt w (front ++ t.node.leftBy t.context.frames.head?).length
        (front ++ t.node.leftBy t.context.frames.head? ++ rest) t.context.leave t.own := by
  have hi : front.length < (front ++ x :: rest).length := by simp
  have hx : (front ++ x :: rest)[front.length] = x := by simp
  rw [eachStmtAt, dif_pos hi]
  simp only [hx, inFrame_apply, h, set_append_cons]
  cases t.context.frames.head? with
  | none =>
    rw [Stmt.leftBy, List.length_append, List.append_assoc]
    rfl
  | some f => simp only [Stmt.leftBy, Frame.applyAt_append]

/-- The statements in front of the position are not looked at again. -/
lemma eachStmtAt_append (front stmts : List Stmt) (c : Context) (own : τ × Scope) :
    eachStmtAt w front.length (front ++ stmts) c own =
      match eachStmt w ⟨stmts, c, own⟩ with
      | .ok _ u => .ok () ⟨front ++ u.node, u.context, u.own⟩
      | .error e u => .error e ⟨front ++ u.node, u.context, u.own⟩ := by
  induction stmts generalizing front c own with
  | nil =>
    have hnil : eachStmt w ⟨[], c, own⟩ = .ok () ⟨[], c, own⟩ := rfl
    simp only [hnil, List.append_nil, eachStmtAt_length]
  | cons x rest ih =>
    cases h : w ⟨x, c.enter x.kind .statement, own⟩ with
    | error e t => rw [eachStmtAt_of_error h, eachStmt_cons_of_error h]
    | ok _ t =>
      -- The segment of this statement joins what is in front.
      rw [eachStmtAt_of_ok h, ih, eachStmt_cons_of_ok h]
      cases eachStmt w ⟨rest, t.context.leave, t.own⟩ with
      | ok _ u => simp only [List.append_assoc]
      | error e u => simp only [List.append_assoc]

/-- To exchange statements for their segments is to walk over the list by position and to edit it in
place. -/
theorem eachStmt_eq_eachStmtAt (stmts : List Stmt) (c : Context) (own : τ × Scope) :
    eachStmt w ⟨stmts, c, own⟩ = eachStmtAt w 0 stmts c own := by
  have hwalk := eachStmtAt_append (w := w) [] stmts c own
  rw [List.nil_append, List.length_nil] at hwalk
  rw [hwalk]
  cases eachStmt w ⟨stmts, c, own⟩ <;> rfl

end Positions

end Visitor
end DeclIR
