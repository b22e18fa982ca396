import DeclIR.Proofs.Traversal.InPlace
import DeclIR.Proofs.Traversal.Log
import Mathlib.Data.List.Induction

/-!
# Edits of statements

When the statements of a list are visited, each of them gives place to the statements requested in
front of it, to what it is exchanged for or to itself as its visit leaves it, and to the statements
requested behind it (`StmtVisit.segment`).  This is said in terms of what the visitor's hooks ask
for, read off the log of the walk, and not of the frames that the requests are kept in.

`Visitor.ActsBy.eachStmt_edits` says that a walk over a list does this to each of its statements and
visits no other statement, for every visitor that deals with the context by requests and notes of
changes.  The hooks may also change the statements that they are called with.
-/

namespace DeclIR

open Visit

/-! ## Requests for a statement -/

/-- The edit that is asked for, if it is one. -/
def Act.request? : Act → Option Request
  | ask r => some r
  | mark => none

namespace Request

/-- The statement to go in front of the current one. -/
def before? : Request → Option Stmt
  | insertBefore s => some s
  | _ => none

/-- The statement to go behind the current one. -/
def after? : Request → Option Stmt
  | insertAfter s => some s
  | _ => none

/-- What is to be in the place of the current statement: another one or nothing. -/
def exchange? : Request → Option (Option Stmt)
  | replaceStmt s => some (some s)
  | removeStmt => some none
  | _ => none

end Request

/-- The calls for a statement, with the statement before the visit and as the visit leaves it. -/
structure StmtVisit extends NodeVisit where
  stmt : Stmt
  left : Stmt

namespace StmtVisit

/-- What is asked for while the statement is the current node. -/
def requests (x : StmtVisit) : List Request := x.acts.filterMap Act.request?

/-- The statements that take the place of the one visited.  The last request to replace or remove it
counts. -/
def segment (x : StmtVisit) : List Stmt :=
  x.requests.filterMap Request.before? ++
    ((x.requests.filterMap Request.exchange?).getLast?.getD (some x.left)).toList ++
    x.requests.filterMap Request.after?

end StmtVisit

namespace Frame

variable {f : Frame} {acts : List Act}

/-- The edit by which a statement is exchanged for another one or for nothing. -/
def exchange : Option Stmt → Edit
  | some s => .replaceStmt s
  | none => .removeStmt

lemma performAll_append_singleton (f : Frame) (acts : List Act) (act : Act) :
    f.performAll (acts ++ [act]) = (f.performAll acts).perform act := by
  simp [performAll]

/-- What acts leave in the frame of a statement. -/
lemma performAll_statement (hf : f.slot = .statement) (acts : List Act) :
    let requests := acts.filterMap Act.request?
    (f.performAll acts).slot = .statement ∧
      (f.performAll acts).before = f.before ++ requests.filterMap Request.before? ∧
      (f.performAll acts).after = f.after ++ requests.filterMap Request.after? ∧
      (f.performAll acts).edit =
        ((requests.filterMap Request.exchange?).getLast?.map exchange).or f.edit := by
  -- From the end of the list, since the last request to exchange the statement counts.
  induction acts using List.reverseRecOn with
  | nil => simp [performAll, hf]
  | append_singleton acts act ih =>
    obtain ⟨hslot, hbefore, hafter, hedit⟩ := ih
    rw [performAll_append_singleton]
    -- A note of a change leaves the frame, and a request is kept in the part of it that it is for.
    cases act with
    | mark =>
      have hrequests :
          (acts ++ [Act.mark]).filterMap Act.request? = acts.filterMap Act.request? := by
        simp [List.filterMap_cons, Act.request?]
      rw [hrequests]
      exact ⟨hslot, hbefore, hafter, hedit⟩
    | ask r =>
      simp only [perform, hslot]
      cases r <;>
        simp [record, Request.required, Act.request?, Request.before?, Request.after?,
          Request.exchange?, exchange, hslot, hbefore, hafter, hedit]

/-- A statement's frame that was fresh when the visit began is left with the segment of the
visit. -/
lemma segment_performAll (kind : NodeKind) (x : StmtVisit) :
    (({ kind, slot := .statement } : Frame).performAll x.acts).segment x.left = x.segment := by
  have hf : ({ kind, slot := .statement } : Frame).slot = .statement := rfl
  obtain ⟨-, hbefore, hafter, hedit⟩ := performAll_statement hf x.acts
  unfold segment StmtVisit.segment StmtVisit.requests
  rw [hbefore, hafter, hedit]
  cases ((x.acts.filterMap Act.request?).filterMap Request.exchange?).getLast? with
  | none => rfl
  | some exchanged => cases exchanged <;> rfl

end Frame

/-! ## Lists of statements -/

namespace Visitor

variable {σ : Type} {v : Visitor σ} {a : Conduct σ} {k : Nat} {c d : Context}
  {own own' : (σ × List Entry) × Scope} {visits : List StmtVisit}

/-- Statements are visited one after the other: each one in a frame of its own, from where the visit
of the one before it has ended. -/
inductive Visits (v : Visitor σ) (a : Conduct σ) (k : Nat) :
    Context → (σ × List Entry) × Scope → List StmtVisit →
      Context → (σ × List Entry) × Scope → Prop
  | nil (c : Context) (own : (σ × List Entry) × Scope) : Visits v a k c own [] c own
  | cons {x : StmtVisit} {rest : List StmtVisit} {c c' d : Context}
      {own own' own'' : (σ × List Entry) × Scope}
      (hwalk : (v.logged a).walkStmtWithin k ⟨x.stmt, c.enter x.stmt.kind .statement, own⟩ =
        .ok () ⟨x.left, c', own'⟩)
      (hshown : x.stmt.ShownAs x.first.node)
      (hcalls : x.Between (c.enter x.stmt.kind .statement) own.1.2 c' own'.1.2)
      (hrest : Visits v a k c'.leave own' rest d own'') :
      Visits v a k c own (x :: rest) d own''

namespace Visits

/-- Nothing is logged but the calls for the statements. -/
lemma log_eq (h : v.Visits a k c own visits d own') :
    own'.1.2 = own.1.2 ++ visits.flatMap fun x => x.calls := by
  induction h with
  | nil => simp
  | cons _ _ hcalls _ ih => rw [ih, hcalls.log_eq, List.flatMap_cons, List.append_assoc]

/-- The statements of a list are shown by the first calls that are made at its depth. -/
lemma shown (h : v.Visits a k c own visits d own') :
    (visits.map (·.stmt)).Forall₂ Stmt.ShownAs
      (((visits.flatMap fun x => x.calls).filter fun e =>
        e.depth = c.depth + 1 && e.phase = .pre).map (·.node)) := by
  induction h with
  | nil => exact .nil
  | @cons x rest c c' d own own' own'' _ hshown hcalls _ ih =>
    have hdepth : c'.leave.depth = c.depth := (Within.of_nodeVisit hcalls).depth_eq
    rw [hdepth] at ih
    have hfirst := hcalls.filter_calls
    rw [Context.depth_enter] at hfirst
    rw [List.flatMap_cons, List.filter_append, hfirst]
    exact .cons hshown ih

end Visits

/-- How a walk over a list can end.  Each statement that has been visited is exchanged for its
segment, and no other statement is visited.  If the visit of a statement fails, the statement stays
as it is by then, without the edits requested for it, and those behind it are not visited. -/
inductive Edits (v : Visitor σ) (a : Conduct σ) (k : Nat) (stmts : List Stmt) (c : Context)
    (own : (σ × List Entry) × Scope) :
    EStateM.Result Fault (Site ((σ × List Entry) × Scope) (List Stmt)) Unit → Prop
  | done {visits : List StmtVisit} {d : Context} {own' : (σ × List Entry) × Scope}
      (hstmts : visits.map (·.stmt) = stmts)
      (hvisits : v.Visits a k c own visits d own')
      (hlog : own'.1.2 = own.1.2 ++ visits.flatMap fun x => x.calls)
      (hshown : stmts.Forall₂ Stmt.ShownAs
        (((visits.flatMap fun x => x.calls).filter fun e =>
          e.depth = c.depth + 1 && e.phase = .pre).map (·.node))) :
      Edits v a k stmts c own (.ok () ⟨visits.flatMap StmtVisit.segment, d, own'⟩)
  | failed {visits : List StmtVisit} {x left : Stmt} {rest : List Stmt} {e : Fault}
      {d d' : Context} {own' own'' : (σ × List Entry) × Scope}
      (hstmts : visits.map (·.stmt) ++ x :: rest = stmts)
      (hvisits : v.Visits a k c own visits d own')
      (hfails : (v.logged a).walkStmtWithin k ⟨x, d.enter x.kind .statement, own'⟩ =
        .error e ⟨left, d', own''⟩) :
      Edits v a k stmts c own
        (.error e ⟨visits.flatMap StmtVisit.segment ++ left :: rest, d', own''⟩)

/-- Visits to every statement of a list are an edited run that succeeds. -/
lemma Visits.edits {stmts : List Stmt} (h : v.Visits a k c own visits d own')
    (hstmts : visits.map (·.stmt) = stmts) :
    v.Edits a k stmts c own (.ok () ⟨visits.flatMap StmtVisit.segment, d, own'⟩) :=
  .done hstmts h h.log_eq (hstmts ▸ h.shown)

/-- Walking over a list, by induction on the list: the edits for a statement are those that the
calls for it have left in its frame. -/
lemma ActsBy.edits (hv : v.ActsBy a) (stmts : List Stmt) (c : Context)
    (own : (σ × List Entry) × Scope) :
    v.Edits a (k + 1) stmts c own
      (eachStmt ((v.logged a).walkStmtWithin (k + 1)) ⟨stmts, c, own⟩) := by
  induction stmts generalizing c own with
  | nil => exact Visits.edits (.nil c own) rfl
  | cons x rest ih =>
    cases h : (v.logged a).walkStmtWithin (k + 1) ⟨x, c.enter x.kind .statement, own⟩ with
    | error e t =>
      rw [eachStmt_cons_of_error h]
      exact .failed rfl (.nil c own) h
    | ok _ t =>
      obtain ⟨y, hshown, hy⟩ := hv.logs.walkStmt k _ t h
      -- The statement's frame was fresh, and only the two calls for the statement reach it.
      have hframe : t.context.frames.head? =
          some (({ kind := x.kind, slot := .statement } : Frame).performAll y.acts) := by
        rw [hy.frames_eq]
        rfl
      let visit : StmtVisit := { toNodeVisit := y, stmt := x, left := t.node }
      have hsegment : t.node.leftBy t.context.frames.head? = visit.segment := by
        rw [hframe]
        exact Frame.segment_performAll x.kind visit
      -- Behind the statement the walk goes on in the context around it, where the rest is edited.
      have hrest := ih t.context.leave t.own
      rw [eachStmt_cons_of_ok h, hsegment]
      generalize eachStmt ((v.logged a).walkStmtWithin (k + 1)) ⟨rest, t.context.leave, t.own⟩ = r
        at hrest ⊢
      cases hrest with
      | done hstmts hvisits =>
        have hall := Visits.cons (x := visit) h hshown hy hvisits
        exact hall.edits (congrArg (x :: ·) hstmts)
      | @failed visits z left behind e d d' own' own'' hstmts hvisits hfails =>
        have hall := Visits.cons (x := visit) h hshown hy hvisits
        have hstmts' : (visit :: visits).map (·.stmt) ++ z :: behind = x :: rest :=
          congrArg (x :: ·) hstmts
        have hedits := Edits.failed hstmts' hall hfails
        rwa [List.flatMap_cons, List.append_assoc] at hedits

/-- A walk over a list by position, which edits the list in place, exchanges each statement for its
segment, for every visitor that deals with the context by requests and notes of changes.  The log
from which this is read off takes no part in the walk. -/
theorem ActsBy.eachStmt_edits (hv : v.ActsBy a) (k : Nat) (stmts : List Stmt) (c : Context)
    (own : σ) (scope : Scope) :
    eachStmtAt (v.walkStmtWithin (k + 1)) 0 stmts c (own, scope) =
        eachStmt (v.walkStmtWithin (k + 1)) ⟨stmts, c, (own, scope)⟩ ∧
      eachStmt (v.walkStmtWithin (k + 1)) ⟨stmts, c, (own, scope)⟩ =
        erase (Prod.map Prod.fst id)
          (eachStmt ((v.logged a).walkStmtWithin (k + 1)) ⟨stmts, c, ((own, []), scope)⟩) ∧
      v.Edits a (k + 1) stmts c ((own, []), scope)
        (eachStmt ((v.logged a).walkStmtWithin (k + 1)) ⟨stmts, c, ((own, []), scope)⟩) :=
  ⟨(eachStmt_eq_eachStmtAt stmts c (own, scope)).symm,
    ErasesTo.eachStmt ((v.logged_erasesTo a).walkStmtWithin (k + 1)) ⟨stmts, c, ((own, []), scope)⟩,
    hv.edits stmts c ((own, []), scope)⟩

end Visitor

/-! ## An editor -/

/-- A statement that reads a local variable. -/
def Stmt.reads (i : Nat) : Stmt := .eval .synthetic (.localVar .synthetic i)

/-- The variable that such a statement reads. -/
def Stmt.read? : Stmt → Option Nat
  | .eval _ (.localVar _ i) => some i
  | _ => none

/-- Some requests for statements that read variables, by the variable. -/
def Request.forRead : Nat → List Request
  | 1 => [.removeStmt]
  | 2 => [.insertBefore (.reads 0), .insertAfter (.reads 3)]
  | 4 => [.removeStmt, .replaceStmt (.reads 5)]
  | 7 => [.insertAfter (.reads 9), .insertBefore (.reads 8), .replaceStmt (.reads 1), .removeStmt]
  | _ => []

/-- The visitor makes these requests before it visits the parts of a statement. -/
def Conduct.editing : Conduct Unit where
  hook
    | .pre, .stmt s, _, _ => (s.read?.toList.flatMap Request.forRead).map .ask
    | _, _, _, _ => []
  tags _ _ _ := []

/-- A visitor that makes these requests. -/
def Visitor.editing : Visitor Unit where
  visitStmt := do
    let s ← node
    mapContext (·.performAll ((s.read?.toList.flatMap Request.forRead).map .ask))
    return true

lemma Visitor.editing_actsBy : editing.ActsBy .editing where
  hooks := by
    constructor
    all_goals
      intros
      intro s
      rfl
  keepTags := nofun

/-- The editing visitor removes, replaces and inserts around the five statements of a list. -/
lemma Visitor.eachStmt_editing_reads :
    ∃ t, eachStmt (editing.walkStmtWithin 1)
          ⟨[1, 2, 4, 6, 7].map Stmt.reads, {}, ((), ⟨0, [], []⟩)⟩ =
        .ok () t ∧
      t.node.map Stmt.read? =
        [some 0, some 2, some 3, some 5, some 6, some 8, some 9] :=
  ⟨_, eq_ok_after (w := eachStmt (editing.walkStmtWithin 1)) (by decide +kernel), by decide +kernel⟩

/-- Of the statements that read variables 1, 2, 4, 6 and 7 the first and the last one are removed
and the third one is replaced, and what is inserted is where it was requested. -/
theorem Visitor.eachStmt_edits_reads :
    editing.ActsBy .editing ∧
      ∃ (visits : List StmtVisit) (t : Site (Unit × Scope) (List Stmt)),
        eachStmt (editing.walkStmtWithin 1)
            ⟨[1, 2, 4, 6, 7].map Stmt.reads, {}, ((), ⟨0, [], []⟩)⟩ =
          .ok () t ∧
        visits.map (·.stmt) = [1, 2, 4, 6, 7].map Stmt.reads ∧
        t.node = visits.flatMap StmtVisit.segment ∧
        t.node.map Stmt.read? =
          [some 0, some 2, some 3, some 5, some 6, some 8, some 9] := by
  refine ⟨editing_actsBy, ?_⟩
  obtain ⟨t, hrun, hnode⟩ := eachStmt_editing_reads
  obtain ⟨-, herase, hedits⟩ :=
    editing_actsBy.eachStmt_edits 0 ([1, 2, 4, 6, 7].map Stmt.reads) {} () ⟨0, [], []⟩
  rw [hrun] at herase
  generalize eachStmt ((editing.logged .editing).walkStmtWithin (0 + 1)) _ = r at herase hedits
  cases hedits with
  | failed => cases herase
  | @done visits d own' hstmts =>
    cases herase
    exact ⟨visits, _, hrun, hstmts, rfl, hnode⟩

end DeclIR
