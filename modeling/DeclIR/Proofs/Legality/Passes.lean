import DeclIR.Proofs.Inlining.Substitution
import DeclIR.Proofs.Pipeline.Schedule
import DeclIR.Proofs.Construction.Flags
import DeclIR.Proofs.Traversal.FieldFrame

/-!
# What passes do to flags

A relation between a type and what a pass leaves of it holds of each type of a program across a
whole run of such passes, in whatever order the types finish and wherever the run fails
(`Pipeline.run_leads`).  The standard pipeline changes no flag of any field in this way
(`optimize_sameFlags`).
-/

namespace DeclIR

/-! ## Types one by one -/

section Runs

variable {ε : Type} {R : DeclaredType → DeclaredType → Prop} [IsPreorder DeclaredType R]

namespace Pass

variable {p : Pass ε} (hp : ∀ t, R t (p.result t))
include hp

/-- What a pass does to each type one after the other it does to the list, also if it fails. -/
lemma sequentially_leads (types : List DeclaredType) :
    Pointwise (fun _ => R) types (endState (p.sequentially types)) := by
  have hrefl : ∀ (_ : Nat) t, R t t := fun _ t => refl_of R t
  -- A pass that fails leaves the types behind the one that it fails for.
  induction types with
  | nil => exact .refl hrefl []
  | cons t rest ih =>
    have ht := hp t
    unfold result at ht
    unfold sequentially
    cases hrun : p.run t with
    | error e t' =>
      rw [hrun] at ht
      exact .cons ht (.refl hrefl rest)
    | ok changed t' =>
      rw [hrun] at ht
      simp only
      cases hrest : p.sequentially rest with
      | error e rest' =>
        rw [hrest] at ih
        exact .cons ht ih
      | ok n rest' =>
        rw [hrest] at ih
        exact .cons ht ih

/-- A worker that takes up one type does to it what the pass does, and leaves the others. -/
lemma workOn_leads (persists : Nat → Bool) (s : Progress ε) (i : Nat) :
    Pointwise (fun _ => R) s.types (p.workOn persists s i).types := by
  have hrefl : ∀ (_ : Nat) t, R t t := fun _ t => refl_of R t
  unfold workOn
  split
  · exact .refl hrefl s.types
  · cases ht : s.types[i]? with
    | none => exact .refl hrefl s.types
    | some t =>
      have hresult := hp t
      unfold result at hresult
      simp only
      cases hrun : p.run t with
      | ok changed t' =>
        rw [hrun] at hresult
        exact .set hrefl ht hresult
      | error e t' =>
        rw [hrun] at hresult
        exact .set hrefl ht hresult

/-- So do workers that take up the types in any order. -/
lemma concurrently_leads (types : List DeclaredType) (order : FinishOrder types.length) :
    Pointwise (fun _ => R) types (endState (p.concurrently types order)) := by
  have hfold (positions : List Nat) (s : Progress ε) :
      Pointwise (fun _ => R) s.types (positions.foldl (p.workOn order.persists) s).types := by
    induction positions generalizing s with
    | nil => exact .refl (fun _ t => refl_of R t) s.types
    | cons i rest ih =>
      exact (workOn_leads hp order.persists s i).trans (fun _ _ _ _ => trans_of R) (ih _)
  unfold concurrently
  simp only
  split
  · exact hfold order.positions { types }
  · exact hfold order.positions { types }

end Pass

/-! ## Whole runs -/

namespace Pipeline

/-- A pass does to each type of a program what it does to a type alone, under any settings. -/
lemma apply_leads {p : Pass ε} (hp : ∀ t, R t (p.result t)) (settings : Settings)
    (order : (n : Nat) → FinishOrder n) (q : Program) :
    Pointwise (fun _ => R) q.types (endState (apply settings order p q)).types := by
  have hresult : Pointwise (fun _ => R) q.types (endState
      (if settings.parallel then p.concurrently q.types (order q.types.length)
        else p.sequentially q.types)) := by
    split
    · exact Pass.concurrently_leads hp q.types _
    · exact Pass.sequentially_leads hp q.types
  unfold apply
  simp only
  cases hrun : if settings.parallel then p.concurrently q.types (order q.types.length)
      else p.sequentially q.types with
  | ok n types =>
    rw [hrun] at hresult
    exact hresult
  | error e types =>
    rw [hrun] at hresult
    exact hresult

/-- To verify a program leaves it. -/
lemma endState_verify (settings : Settings) (raise : Fault → ε) (q : Program) :
    endState (verify settings raise q) = q := by
  rw [verify_eq]
  cases if settings.verifyAfterEachPass then q.verify else .ok () <;> rfl

/-- What each pass does to types, all passes together do, also if the run fails. -/
lemma runPasses_leads {passes : List (Pass ε)} (hpasses : ∀ p ∈ passes, ∀ t, R t (p.result t))
    (settings : Settings) (raise : Fault → ε) (schedule : Schedule) (q : Program) :
    Pointwise (fun _ => R) q.types
      (endState (runPasses settings raise schedule passes q)).types := by
  -- A run goes on only if the pass and the check behind it succeed; the check changes nothing.
  induction passes generalizing schedule q with
  | nil => exact .refl (fun _ t => refl_of R t) q.types
  | cons p rest ih =>
    have happly := apply_leads (hpasses p List.mem_cons_self) settings (schedule 0) q
    rw [runPasses_cons]
    simp only
    cases hrun : apply settings (schedule 0) p q with
    | error e q' =>
      rw [hrun] at happly
      exact happly
    | ok changedTypes q' =>
      rw [hrun] at happly
      have hverify := endState_verify settings raise q'
      simp only
      cases hcheck : verify settings raise q' with
      | error e r =>
        rw [hcheck] at hverify
        exact hverify ▸ happly
      | ok _ r =>
        rw [hcheck] at hverify
        obtain rfl : r = q' := hverify
        have hrest := ih (fun p hp => hpasses p (List.mem_cons_of_mem _ hp))
          (fun k => schedule (k + 1)) r
        have hwhole := Pointwise.trans (R := fun _ => R) (fun _ _ _ _ => trans_of R) happly hrest
        simp only
        cases hrun' : runPasses settings raise (fun k => schedule (k + 1)) rest r with
        | error e q'' =>
          rw [hrun'] at hwhole
          exact hwhole
        | ok outcomes q'' =>
          rw [hrun'] at hwhole
          exact hwhole

/-- What holds of each type across each pass holds across the run. -/
theorem run_leads {l : Pipeline ε} (hl : ∀ p ∈ l.passes, ∀ t, R t (p.result t))
    (raise : Fault → ε) (schedule : Schedule) (q : Program) :
    Pointwise (fun _ => R) q.types (endState (l.run raise schedule q)).types := by
  have hpasses := runPasses_leads hl l.settings raise schedule q
  rw [run_eq]
  cases hrun : runPasses l.settings raise schedule l.passes q with
  | error e r =>
    rw [hrun] at hpasses
    exact hpasses
  | ok outcomes r =>
    rw [hrun] at hpasses
    exact hpasses

end Pipeline
end Runs

/-! ## Rewriting -/

/-- The fields before and after have the same flags. -/
def SameFlags (l l' : List Field) : Prop := Pointwise (fun _ f g => g.flags = f.flags) l l'

lemma SameFlags.refl (l : List Field) : SameFlags l l := ⟨rfl, fun _ f hf => ⟨f, hf, rfl⟩⟩

instance : IsPreorder DeclaredType fun t t' => SameFlags t.fields t'.fields where
  refl t := .refl t.fields
  trans _ _ _ h h' := Pointwise.trans (fun _ _ _ _ hab hbc => hbc.trans hab) h h'

/-- No flag of a field changes. -/
def FieldFrame.sameFlags (σ : Type) : FieldFrame σ where
  Own _ _ := True
  Becomes _ _ f g := g.flags = f.flags
  own_preorder := {
    refl _ := trivial
    trans _ _ _ _ _ := trivial }
  refl _ _ _ := rfl
  trans h h' := h'.trans h
  mono _ h := h
  declare _ _ _ _ := rfl

section Rewriting

variable {σ : Type} {v : Visitor σ} {r : Rewriter σ}

/-- A visitor that does nothing but replace expressions changes no flag. -/
lemma Visitor.Rewrites.respects (hv : v.Rewrites r) : v.Respects (.sameFlags σ) where
  visitMethod := fun _ => trivial
  endVisitMethod := fun _ => trivial
  visitParameter := fun _ => trivial
  endVisitParameter := fun _ => trivial
  visitTag _ := fun _ => trivial
  endVisitTag _ := fun _ => trivial
  keepTags _ _ _ := fun _ => trivial
  visitBlock := fun _ => trivial
  endVisitBlock := fun _ => trivial
  visitDeclaration slot info := by
    rw [hv.visitDeclaration]
    exact .pure true
  endVisitDeclaration slot info := by
    rw [hv.endVisitDeclaration]
    exact .pure ()
  visitStmt := fun _ => trivial
  endVisitStmt := fun _ => trivial
  visitExpr := fun _ => trivial
  endVisitExpr := fun _ => trivial

/-- A rewriting walk leaves the flags of all fields. -/
lemma Visitor.Rewrites.walkType_sameFlags (hv : v.Rewrites r) (t : DeclaredType) (c : Context)
    (own : σ) : SameFlags t.fields (v.walkType.after ⟨t, c, own⟩).node.fields := by
  have hmethods : SameFlags t.fields ((Visit.each v.walkMethod).after
      ⟨t.methods, Observer.insideType c t, (own, t.fields)⟩).own.2 :=
    (hv.respects.each_walkMethod ⟨t.methods, Observer.insideType c t, (own, t.fields)⟩).fields
  unfold Visit.after at hmethods ⊢
  rw [hv.walkType_apply]
  cases hrun : Visit.each v.walkMethod ⟨t.methods, Observer.insideType c t, (own, t.fields)⟩ with
  | ok _ s =>
    rw [hrun] at hmethods
    exact hmethods
  | error e s =>
    rw [hrun] at hmethods
    exact hmethods

end Rewriting

/-! ## The standard pipeline -/

/-- Inlining leaves a type where its walk ends, whether it fails or not. -/
lemma inlineConstants_result_eq_after (t : DeclaredType) :
    inlineConstants.result t =
      if t.hasConstants then ((inliner t.constant?).walkType.after ⟨t, {}, ()⟩).node else t := by
  simp only [Pass.result, inlineConstants]
  cases hconstants : t.hasConstants with
  | false => rfl
  | true =>
    unfold Visit.after
    simp only [if_true]
    cases (inliner t.constant?).walkType ⟨t, {}, ()⟩ <;> rfl

/-- Inlining leaves the flags of all fields. -/
lemma inlineConstants_sameFlags (t : DeclaredType) :
    SameFlags t.fields (inlineConstants.result t).fields := by
  rw [inlineConstants_result_eq_after]
  split
  · exact (inliner_rewrites t.constant?).walkType_sameFlags t {} ()
  · exact .refl t.fields

/-- The standard pipeline changes no flag of a field, whether it succeeds or not. -/
theorem optimize_sameFlags (settings : Settings) (schedule : Pipeline.Schedule) (p : Program) :
    Pointwise (fun _ t t' => SameFlags t.fields t'.fields) p.types
      (endState (optimize settings schedule p)).types := by
  refine Pipeline.run_leads (R := fun t t' => SameFlags t.fields t'.fields) ?_ id schedule p
  intro q hq t
  rw [List.mem_singleton.mp hq]
  exact inlineConstants_sameFlags t

end DeclIR
