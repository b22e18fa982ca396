import DeclIR.Proofs.Traversal.Passage
import DeclIR.Proofs.Traversal.Quiet

/-!
# Balanced traversals

Each node that is visited is entered and left again, so a visit that succeeds ends on the path that
it began on.  A visit that fails does not leave the nodes that it is in, so its path ends at the
node whose hook failed, or at an anchor that does not resolve (`Visitor.ActsBy.balanced`).

While a hook is called, the place of its node decides which edits are granted, and the context
counts as changed from the first edit that is granted or change that is noted.
-/

namespace DeclIR

open Visit

variable {σ τ ν : Type} {start : Context}

/-! ## Walks over code -/

/-- Each hook of the visitor adds its call to the record. -/
structure Visitor.Records (v : Visitor τ) (record : τ → List Encounter) : Prop where
  hooks : v.Hooks fun _ _ phase x w => w.Records record fun n => .node phase (x n)
  keepTags : ∀ keep list, v.keepTags = some keep →
    (keep list).Records record fun _ => .tags list

/-- A visitor whose hooks act by a conduct, watched by the recorder, writes down each of its
encounters. -/
lemma Visitor.ActsBy.records {v : Visitor σ} {a : Conduct σ} (hv : v.ActsBy a) :
    (v.recorded a).Records Prod.snd where
  hooks := .wrap (fun _ _ _ _ _ hw => recording_records hw _) hv.hooks
  keepTags keep list hkeep := by
    obtain ⟨keep, hkeep', rfl⟩ := Option.map_eq_some_iff.mp hkeep
    exact recording_records (hv.keepTags keep list hkeep') _

namespace Visitor.Records

variable {v : Visitor τ} {record : τ → List Encounter} (hv : v.Records record)
  {admits : Option NodeKind → Prop}
include hv

/-- A walk over an expression leaves the ancestry as it found it, and a failing one leaves the
frames of the path to the expression it failed at. -/
lemma walkExprWithin (k : Nat) : (v.walkExprWithin k).Enters start record .expr := by
  induction k with
  | zero => exact fun _ hs => Continues.refl hs
  | succ k ih =>
    have hparts (e : Expr) : (inOperands (v.walkExprWithin k)).Remains start record
        fun kind? => kind? = some (Node.expr e).kind := by
      unfold inOperands
      refine .node_bind fun e => ?_
      cases e with
      | instanceField info f receiver => exact ih.remains.part _ _
      | binary info op lhs rhs =>
        exact ((ih.remains.bind fun _ => .node).part _ _).bind fun lhs => ih.remains.part _ _
      | _ => exact .pure ()
    intro s hs
    unfold Visitor.walkExprWithin
    rw [bind_apply, node_apply]
    refine (Keeps.inFrame hs (s.node.slot_kind _) ?_).bind fun frame? t ht => ?_
    · rintro _ rfl hentered
      exact .around hv.hooks.visitExpr (hparts s.node) hv.hooks.endVisitExpr hentered
    · -- The expression is exchanged after its frame was left, which changes only the node.
      cases frame? with
      | none => exact Continues.refl ht.sound
      | some frame => exact Continues.refl ht.sound

lemma walkExpr : v.walkExpr.Enters start record .expr := by
  unfold Visitor.walkExpr
  exact .node_bind fun e => hv.walkExprWithin _

/-- An initializer is walked without a frame of its own, so the walk remains where it started. -/
lemma walkInitializer : v.walkInitializer.Remains start record admits := by
  unfold Visitor.walkInitializer
  refine .node_bind fun target => ?_
  cases target.base.declaration with
  | none => exact .pure ()
  | some d => exact hv.walkExpr.remains.part _ _

/-- An anchor that does not resolve fails where it has been entered. -/
lemma walkDeclaration (info : Provenance) (slot : VarSlot) :
    (v.walkDeclaration info slot).Attends start (fun own => record own.1)
      fun _ => .declaration := by
  intro s hs
  unfold Visitor.walkDeclaration
  rw [bind_apply, get_apply]
  simp only
  cases s.own.2.resolve? slot with
  | none =>
    -- No hook was called for the anchor, which is on the path but not among the open nodes.
    have hstuck : Stuck start (openNodes (record s.own.1)) s.context (record s.own.1)
        (.danglingSlot slot info) :=
      ⟨{ hs.sound.toRecorded with }, List.suffix_rfl,
        .inr ⟨slot, info, rfl, hs.sound.succeeds, hs.onPath⟩⟩
    exact hstuck
  | some d =>
    have haround : (around (v.visitDeclaration slot info) v.walkInitializer
        (v.endVisitDeclaration slot info)).Attends start record fun _ => .declaration :=
      .around (hv.hooks.visitDeclaration slot info) (fun _ => hv.walkInitializer)
        (hv.hooks.endVisitDeclaration slot info)
    exact (haround ⟨d, s.context, s.own.1⟩ hs).zoom ⟨rfl, rfl⟩ fun _ => ⟨rfl, rfl⟩

section Parts

variable {w : Visit (τ × Scope) Stmt Unit}
  (hw : w.Attends start (fun own => record own.1) Stmt.kind)
include hw

omit hv in
/-- A run over a list of statements remains where it started, and what fails in it lies below one of
the statements. -/
lemma eachStmt :
    (eachStmt w).Remains start (fun own => record own.1) fun kind? => kind? = some .block := by
  unfold Visitor.eachStmt
  refine .eachSegment (.node_inFrame hw ?_ fun frame? => ?_)
  · rintro x _ rfl
    exact x.slot_kind
  · cases frame? with
    | none => exact .node_bind fun _ => .pure _
    | some frame => exact .node_bind fun _ => .pure _

/-- The walk over a block makes the calls of a block that has been entered. -/
lemma walkBlockBy :
    (v.walkBlockBy w).Attends start (fun own => record own.1) fun _ => .block := by
  have hparts (b : Block) : (inBlock w).Remains start (fun own => record own.1)
      fun kind? => kind? = some (Node.block b).kind := by
    unfold inBlock
    exact .node_bind fun b => (eachStmt hw).part _ _
  unfold Visitor.walkBlockBy
  exact .around hv.hooks.visitBlock.beside hparts hv.hooks.endVisitBlock.beside

/-- The block of a body or of a branch is entered, visited and left, wherever it stands but in a
list. -/
lemma walkFixedBlockBy :
    (v.walkFixedBlockBy w).Remains start (fun own => record own.1)
      fun kind? => kind? ≠ some .block := by
  unfold Visitor.walkFixedBlockBy
  exact .inFrame (hv.walkBlockBy hw) fun _ hkind => if_neg hkind

/-- The walk below a statement remains at the frame of the statement. -/
lemma inStmt :
    (v.inStmt w).Remains start (fun own => record own.1) fun kind? => kind? ≠ some .block := by
  have hexpr : (beside v.walkExpr : Visit (τ × Scope) Expr Unit).Remains start
      (fun own => record own.1) fun kind? => kind? ≠ some .block := hv.walkExpr.remains.beside
  have hblock := hv.walkFixedBlockBy hw
  unfold Visitor.inStmt
  refine .node_bind fun x => ?_
  cases x with
  | declare info slot => exact .pure ()
  | eval info e => exact hexpr.part _ _
  | ret info value =>
    cases value with
    | none => exact .pure ()
    | some e => exact hexpr.part _ _
  | branch info cond onTrue onFalse =>
    refine ((hexpr.bind fun _ => .node).part _ _).bind fun cond => ?_
    refine ((hblock.bind fun _ => .node).part _ _).bind fun onTrue => ?_
    cases onFalse with
    | none => exact .pure ()
    | some b => exact hblock.part _ _
  | block b => exact .pure ()

end Parts

/-- At every depth of nesting the walk over a statement makes the calls of a statement that has been
entered. -/
lemma walkStmtWithin (k : Nat) :
    (v.walkStmtWithin k).Attends start (fun own => record own.1) Stmt.kind := by
  induction k with
  | zero => exact .pure
  | succ k ih =>
    rintro ⟨x, c, own⟩ hs
    unfold Visitor.walkStmtWithin
    rw [bind_apply, node_apply]
    -- Anchors and blocks have hooks of their own in place of those for statements.
    cases x with
    | declare info slot => exact hv.walkDeclaration info slot _ hs
    | block b => exact (hv.walkBlockBy ih ⟨b, c, own⟩ hs).zoom ⟨rfl, rfl⟩ fun _ => ⟨rfl, rfl⟩
    | _ =>
      refine (Keeps.around (x := .stmt) hv.hooks.visitStmt.beside ((hv.inStmt ih).weaken ?_)
        hv.hooks.endVisitStmt.beside hs).mono (List.suffix_cons ..)
      rintro _ rfl
      simp [Node.kind, Stmt.kind]

/-- The walk over a body remains at the frame of the method. -/
lemma walkBody :
    v.walkBody.Remains start (fun own => record own.1) fun kind? => kind? ≠ some .block := by
  unfold Visitor.walkBody
  exact .node_bind fun b => hv.walkFixedBlockBy (hv.walkStmtWithin _)

/-! ## Walks over declarations -/

/-- The walk over an annotation opens the frame of the tag and closes it again. -/
lemma walkTag (t : Tag) : (v.walkTag t).Enters start record fun _ => .tag t := by
  unfold Visitor.walkTag
  exact .inFrame (fun _ hs => .around (hv.hooks.visitTag t) (.pure ()) (hv.hooks.endVisitTag t) hs)
    fun _ => rfl

/-- A hook that returns annotations is granted no edits, since none of the nodes that have
annotations is in a place for them. -/
lemma inTags (get : ν → List Tag) (put : ν → List Tag → ν) :
    (v.inTags get put).Remains start record NodeKind.IsFixed := by
  have hwalk (list : List Tag) : (v.walkTags list).Remains start record NodeKind.IsFixed := by
    unfold Visitor.walkTags
    -- Without a hook of its own the visitor goes through the tags one by one.
    cases hkeep : v.keepTags with
    | none => exact (Remains.forM (fun t => (hv.walkTag t).remains) list).bind fun _ => .pure _
    | some keep => exact (hv.keepTags keep list hkeep).remains
  unfold Visitor.inTags
  exact .node_bind fun n => ((hwalk (get n)).part _ _).bind fun _ => .setNode _

/-- The walk over a field opens its frame and closes it again. -/
lemma walkField : v.walkField.Enters start record .field := by
  unfold Visitor.walkField
  refine .inFrame (fun s hs => .around (x := .field) hv.hooks.visitField ?_ hv.hooks.endVisitField
    hs) fun _ => rfl
  refine (hv.inTags _ _).weaken ?_
  rintro _ rfl
  exact ⟨_, rfl, fun _ => rfl⟩

lemma walkParameter : v.walkParameter.Enters start record .parameter := by
  unfold Visitor.walkParameter
  exact .inFrame (fun s hs => .around (x := .parameter) hv.hooks.visitParameter (.pure ())
    hv.hooks.endVisitParameter hs) fun _ => rfl

lemma inParameters : v.inParameters.Remains start record admits := by
  unfold Visitor.inParameters
  exact .node_bind fun m => hv.walkParameter.remains.each.part _ _

lemma inBody :
    v.inBody.Remains start (fun own => record own.1) fun kind? => kind? ≠ some .block := by
  unfold Visitor.inBody
  refine .node_bind fun m => ?_
  cases m.body with
  | none => exact .pure ()
  | some body => exact hv.walkBody.zoom (fun _ => ⟨rfl, rfl⟩) fun _ _ => ⟨rfl, rfl⟩

/-- The walk over a method opens its frame and closes it again, whatever its scope recorded. -/
lemma walkMethod : v.walkMethod.Enters start (fun own => record own.1) .method := by
  have hparts : v.inMethod.Remains start (fun own => record own.1)
      fun kind? => kind? = some .method := by
    unfold Visitor.inMethod
    refine ((hv.inTags _ _).weaken ?_).beside.bind fun _ => hv.inParameters.beside.bind fun _ =>
      hv.inBody.weaken ?_
    · rintro _ rfl
      exact ⟨_, rfl, fun _ => rfl⟩
    · rintro _ rfl
      simp
  unfold Visitor.walkMethod
  exact .inFrame (fun s hs => .around (x := .method) hv.hooks.visitMethod.beside hparts
    hv.hooks.endVisitMethod.beside hs) fun _ => rfl

/-- The walk over a type opens its frame and closes it again. -/
lemma walkType : v.walkType.Enters start record .type := by
  have hfields : v.inFields.Remains start record fun kind? => kind? = some .declaredType := by
    unfold Visitor.inFields
    exact .node_bind fun t => hv.walkField.remains.each.part _ _
  have hmethods : v.inMethods.Remains start record fun kind? => kind? = some .declaredType := by
    unfold Visitor.inMethods
    -- The fields are beside the record while the methods are visited.
    exact .node_bind fun t => hv.walkMethod.remains.each.zoom (fun _ => ⟨rfl, rfl⟩)
      fun _ _ => ⟨rfl, rfl⟩
  have hparts : v.inType.Remains start record fun kind? => kind? = some .declaredType := by
    unfold Visitor.inType
    refine ((hv.inTags _ _).weaken ?_).bind fun _ => hfields.bind fun _ => hmethods
    rintro _ rfl
    exact ⟨_, rfl, fun _ => rfl⟩
  unfold Visitor.walkType
  -- The type is entered first and then made the enclosing one.
  refine .node_bind fun t => .inFrame (fun s hs => .enclosedBy t.id ?_) fun _ => rfl
  rintro _ rfl
  exact .around (x := .type) hv.hooks.visitType hparts hv.hooks.endVisitType
    { hs with sound := { hs.sound with } }

end Visitor.Records

/-! ## Balance -/

/-- The visit begins in a context and is recorded from there.  If it succeeds, it ends on the path
and in the type that it began in.  If it fails, it is stuck in the node that it began with. -/
def Visit.Balanced (x : ν → Node) (w : Visit (σ × List Encounter) ν Unit) : Prop :=
  ∀ n start own, match w ⟨n, start, (own, [])⟩ with
    | .ok _ t => Sound start t.context t.own.2 ∧ openNodes t.own.2 = [] ∧
        t.context.frames = start.frames ∧ t.context.enclosingType = start.enclosingType
    | .error f t => Stuck start [x n] t.context t.own.2 f

/-- A walk that enters its node from any start is balanced: it ends where it began, or fails on the
path below the node. -/
lemma Visit.Balanced.of_enters {x : ν → Node} {w : Visit (σ × List Encounter) ν Unit}
    (hw : ∀ start, w.Enters start Prod.snd x) : w.Balanced x := by
  intro n start own
  have h := hw start ⟨n, start, (own, [])⟩ (.refl start)
  cases hrun : w ⟨n, start, (own, [])⟩ with
  | ok _ t =>
    rw [hrun] at h
    exact ⟨h.sound, h.openNodes_eq, h.frames_eq, h.enclosingType_eq⟩
  | error f t =>
    rw [hrun] at h
    exact h

/-- A visit that fails is stuck. -/
lemma Visit.Balanced.stuck {x : ν → Node} {w : Visit (σ × List Encounter) ν Unit}
    (hw : w.Balanced x) {n : ν} {own : σ} {f : Fault} {t : Site (σ × List Encounter) ν}
    (hrun : w ⟨n, start, (own, [])⟩ = .error f t) : Stuck start [x n] t.context t.own.2 f := by
  have h := hw n start own
  rw [hrun] at h
  exact h

/-- Wherever a traversal begins, it ends on the path and in the type that it began in, or on the
path to the node where it failed.  On the way, edits are granted by the place of the current node,
and the context counts as changed from the first edit or note on.  What is said here of the visitor
that records its calls holds of the visitor itself, which does the same. -/
theorem Visitor.ActsBy.balanced {v : Visitor σ} {a : Conduct σ} (hv : v.ActsBy a) :
    ((v.recorded a).walkType.Balanced .type ∧ (v.recorded a).walkField.Balanced .field ∧
      (v.recorded a).walkParameter.Balanced .parameter ∧ (v.recorded a).walkExpr.Balanced .expr) ∧
    (v.recorded a).walkType.ErasesTo Prod.fst v.walkType ∧
      (v.recorded a).walkField.ErasesTo Prod.fst v.walkField ∧
      (v.recorded a).walkParameter.ErasesTo Prod.fst v.walkParameter ∧
      (v.recorded a).walkExpr.ErasesTo Prod.fst v.walkExpr := by
  have herases := v.recorded_erasesTo a
  refine ⟨⟨?_, ?_, ?_, ?_⟩, herases.walkType, herases.walkField, herases.walkParameter,
    herases.walkExpr⟩
  · exact .of_enters fun _ => hv.records.walkType
  · exact .of_enters fun _ => hv.records.walkField
  · exact .of_enters fun _ => hv.records.walkParameter
  · exact .of_enters fun _ => hv.records.walkExpr

/-- A class whose initializer returns, and behind that declares a variable that it does not have. -/
def DeclaredType.astray : DeclaredType where
  info := .synthetic
  id := 0
  name := "C"
  kind := .classType
  enclosing := none
  methods :=
    [{ emptyInitializer .synthetic 0 true with
        body := some ⟨.synthetic, [.ret .synthetic none, .declare .synthetic (.localVar 0)]⟩ }]

/-- The sweeping visitor fails at an anchor without a declaration, deep in a block, and leaves the
four frames of the path and the flag set. -/
lemma Visitor.walkType_sweeping_astray :
    ∃ t, (sweeping.recorded .sweeping).walkType ⟨.astray, {}, ((), [])⟩ =
        .error (.danglingSlot (.localVar 0) .synthetic) t ∧
      t.context.ancestry = [.declaration, .block, .method, .declaredType] ∧
      t.context.changed = true :=
  ⟨_, eq_error_after (by decide +kernel), by decide +kernel, by decide +kernel⟩

/-- The statement is removed before the traversal fails at the anchor, four nodes deep. -/
theorem Visitor.balanced_sweeping_astray :
    sweeping.ActsBy .sweeping ∧
      ∃ t, (sweeping.recorded .sweeping).walkType ⟨.astray, {}, ((), [])⟩ =
          .error (.danglingSlot (.localVar 0) .synthetic) t ∧
        Stuck {} [.type .astray] t.context t.own.2 (.danglingSlot (.localVar 0) .synthetic) ∧
        t.context.ancestry = [.declaration, .block, .method, .declaredType] ∧
        t.context.changed = true := by
  obtain ⟨t, hrun, hancestry, hchanged⟩ := walkType_sweeping_astray
  exact ⟨sweeping_actsBy, t, hrun, sweeping_actsBy.balanced.1.1.stuck hrun, hancestry, hchanged⟩

end DeclIR
