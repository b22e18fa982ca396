import DeclIR.Proofs.Inlining.Reads
import DeclIR.Proofs.Pipeline.Schedule
import Mathlib.Data.Set.Card

/-!
# The standard pipeline

The standard pipeline succeeds on every consistent program and leaves it consistent.  With the check
after its pass it succeeds on no other program: inlining takes no fault away
(`inlineConstants_clears_iff`).  What it reports is how many types are other ones afterwards
(`optimize_counts_changes`).
-/

namespace DeclIR

/-! ## The pass at a type -/

/-- Inlining fails at a type just when the type has constants and an anchor that does not
resolve. -/
lemma inlineConstants_failure? (t : DeclaredType) :
    inlineConstants.failure? t = if t.hasConstants then t.dangling? else none := by
  have hrun := inlineConstants_run t
  rw [Pass.failure?]
  cases hd : if t.hasConstants then t.dangling? else none with
  | some f =>
    rw [hd] at hrun
    obtain ⟨t', hrun⟩ := hrun
    rw [hrun]
  | none =>
    rw [hd] at hrun
    obtain ⟨changed, hrun⟩ := hrun
    rw [hrun]

/-- What the pass leaves of a type that it does not fail at is the type inlined. -/
lemma inlineConstants_result {t : DeclaredType} (h : inlineConstants.failure? t = none) :
    inlineConstants.result t = t.inlined := by
  have hrun := inlineConstants_run t
  rw [← inlineConstants_failure?, h] at hrun
  obtain ⟨changed, hrun⟩ := hrun
  rw [Pass.result, hrun]

/-- The pass counts a type as unchanged just when inlining leaves it. -/
lemma inlineConstants_changes {t : DeclaredType} (h : inlineConstants.failure? t = none) :
    inlineConstants.changes t = false ↔ t.inlined = t :=
  (DeclaredType.of_run_eq_ok (Pass.run_eq_ok h)).2

/-! ## The pass on a program -/

/-- The pass fails at no type of a verified program. -/
lemma failures_eq_nil_of_verify {p : Program} (h : p.verify = .ok ()) :
    inlineConstants.failures p.types = [] := by
  rw [Program.verify_eq_ok] at h
  rw [Pass.failures, List.filterMap_eq_nil_iff]
  intro t ht
  rw [inlineConstants_failure?, DeclaredType.dangling?_eq_none (h t ht), ite_self]

/-- A program that inlining does not fail on is consistent afterwards just when it was before. -/
lemma verify_onProgram_inlineConstants {p : Program} (h : inlineConstants.failures p.types = []) :
    (inlineConstants.onProgram p).verify = .ok () ↔ p.verify = .ok () := by
  rw [Pass.failures, List.filterMap_eq_nil_iff] at h
  rw [Program.verify_eq_ok, Program.verify_eq_ok, Pass.onProgram, List.forall_mem_map]
  refine forall₂_congr fun t ht => ?_
  rw [inlineConstants_result (h t ht), DeclaredType.firstFault?_inlined_eq_none_iff]

/-- With the check, the pass clears just the consistent programs. -/
lemma inlineConstants_clears_iff {p : Program} :
    inlineConstants.Clears true p ↔ p.verify = .ok () := by
  constructor
  · rintro ⟨hfailures, hverify⟩
    exact (verify_onProgram_inlineConstants hfailures).mp (hverify rfl)
  · intro h
    have hfailures := failures_eq_nil_of_verify h
    exact ⟨hfailures, fun _ => (verify_onProgram_inlineConstants hfailures).mpr h⟩

/-! ## The pipeline -/

/-- What the standard pipeline does with a program that its pass clears. -/
lemma optimize_of_clears {settings : Settings} {schedule : Pipeline.Schedule} {p : Program}
    (h : inlineConstants.Clears settings.verifyAfterEachPass p) :
    optimize settings schedule p =
      .ok ⟨[⟨inlineConstants.name, p.types.countP inlineConstants.changes⟩]⟩
        (inlineConstants.onProgram p) := by
  rw [optimize, Pipeline.run_eq, Pipeline.runPasses_of_clears h]
  rfl

/-- With the check after its pass, the standard pipeline succeeds just on the consistent programs.
On such a program it succeeds without the check too, with the same result and the same report, and
the result is consistent. -/
theorem optimize_agrees_with_verify (parallel : Bool) (schedule : Pipeline.Schedule)
    (p : Program) :
    ((∃ report q, optimize ⟨parallel, true⟩ schedule p = .ok report q) ↔ p.verify = .ok ()) ∧
    (p.verify = .ok () → ∃ report q,
      (∀ verifies, optimize ⟨parallel, verifies⟩ schedule p = .ok report q) ∧
        q.verify = .ok ()) := by
  constructor
  · constructor
    · rintro ⟨report, q, hrun⟩
      rw [optimize, Pipeline.run_eq_ok_iff] at hrun
      have hclears : inlineConstants.Clears true p := (Pipeline.clears_of_runPasses hrun).1
      exact inlineConstants_clears_iff.mp hclears
    · intro h
      exact ⟨_, _, optimize_of_clears (inlineConstants_clears_iff.mpr h)⟩
  · intro h
    obtain ⟨hfailures, hverify⟩ := inlineConstants_clears_iff.mpr h
    exact ⟨_, _, fun verifies => optimize_of_clears ⟨hfailures, fun _ => hverify rfl⟩,
      hverify rfl⟩

/-- A program with a constant and a read of it is consistent, and stays so. -/
theorem optimize_withConstant :
    (⟨[.withConstant]⟩ : Program).verify = .ok () ∧ ∃ report q,
      (∀ verifies, optimize ⟨true, verifies⟩ Pipeline.inOrder ⟨[.withConstant]⟩ =
        .ok report q) ∧ q.verify = .ok () := by
  have h : (⟨[.withConstant]⟩ : Program).verify = .ok () := by decide +kernel
  exact ⟨h, (optimize_agrees_with_verify true Pipeline.inOrder ⟨[.withConstant]⟩).2 h⟩

/-! ## The report -/

/-- If the elements with a property are those that are changed, there are as many of them as there
are positions at which the changed list differs. -/
lemma ncard_getElem?_map_ne {α : Type} {f : α → α} {p : α → Bool} {list : List α}
    (h : ∀ x ∈ list, p x = true ↔ f x ≠ x) :
    {i : Nat | (list.map f)[i]? ≠ list[i]?}.ncard = list.countP p := by
  induction list with
  | nil => simp
  | cons x rest ih =>
    have hhead := h x List.mem_cons_self
    -- The positions in the tail are shifted by one.
    let shifted := Nat.succ '' {i : Nat | (rest.map f)[i]? ≠ rest[i]?}
    have hshifted : shifted.ncard = rest.countP p := by
      rw [Set.ncard_image_of_injective _ Nat.succ_injective,
        ih fun y hy => h y (List.mem_cons_of_mem x hy)]
    have hzero : 0 ∉ shifted := by simp [shifted]
    have hpositions : {i : Nat | ((x :: rest).map f)[i]? ≠ (x :: rest)[i]?} =
        if p x then insert 0 shifted else shifted := by
      ext i
      cases i with
      | zero => split <;> simp_all
      | succ i => split <;> simp [shifted]
    rw [hpositions, List.countP_cons]
    split
    · -- The set of positions is finite, as no position behind the list differs.
      have hfinite : shifted.Finite := by
        refine Set.Finite.image _ ((Set.finite_lt_nat rest.length).subset fun i hi => ?_)
        by_contra hlt
        exact hi (by simp [Nat.le_of_not_lt hlt])
      rw [Set.ncard_insert_of_notMem hzero hfinite, hshifted]
    · rw [hshifted, Nat.add_zero]

/-- Inlining says of a type that it changed it just when it did.  So the number that the standard
pipeline reports is the number of positions at which there is another type afterwards. -/
theorem optimize_counts_changes :
    (∀ (t t' : DeclaredType) (changed : Bool), inlineConstants.run t = .ok changed t' →
      (changed = true ↔ t' ≠ t)) ∧
    ∀ (settings : Settings) (schedule : Pipeline.Schedule) (p q : Program) (report : Report),
      optimize settings schedule p = .ok report q →
        q.types.length = p.types.length ∧
        report.changedTypes? "inline-constants" =
          some {i : Nat | q.types[i]? ≠ p.types[i]?}.ncard := by
  constructor
  · intro t t' changed h
    obtain ⟨rfl, hchanged⟩ := DeclaredType.of_run_eq_ok h
    rw [← Bool.not_eq_false, hchanged]
  · intro settings schedule p q report h
    rw [optimize, Pipeline.run_eq_ok_iff] at h
    obtain ⟨hclears, others, houtcomes, hrun⟩ := Pipeline.clears_of_runPasses h
    cases hrun
    have hfailures := List.filterMap_eq_nil_iff.mp hclears.1
    refine ⟨List.length_map _, ?_⟩
    have hchanges : ∀ t ∈ p.types,
        inlineConstants.changes t = true ↔ inlineConstants.result t ≠ t := fun t ht => by
      rw [inlineConstants_result (hfailures t ht), ← Bool.not_eq_false,
        inlineConstants_changes (hfailures t ht)]
    rw [Report.changedTypes?, houtcomes, Pass.onProgram, ncard_getElem?_map_ne hchanges]
    rfl

/-- Of a type with a constant that is read and one without fields, the first one is changed, and
one changed type is reported. -/
theorem optimize_counts_changes_withConstant :
    (∃ t', inlineConstants.run .withConstant = .ok true t' ∧ t' ≠ .withConstant) ∧
    ∃ report q, optimize {} Pipeline.inOrder
        ⟨[.withConstant, .new .synthetic 1 "D" .classType none]⟩ = .ok report q ∧
      q.types.length = 2 ∧ report.changedTypes? "inline-constants" = some 1 ∧
      {i : Nat | q.types[i]? ≠
        [DeclaredType.withConstant, .new .synthetic 1 "D" .classType none][i]?}.ncard = 1 := by
  obtain ⟨hchanged, hcount⟩ := optimize_counts_changes
  have hrun : inlineConstants.run .withConstant = _ := Pass.run_eq_ok (by decide +kernel)
  rw [show inlineConstants.changes .withConstant = true by decide +kernel] at hrun
  have hclears : inlineConstants.Clears true
      ⟨[.withConstant, .new .synthetic 1 "D" .classType none]⟩ :=
    inlineConstants_clears_iff.mpr (by decide +kernel)
  have hoptimize : optimize {} Pipeline.inOrder _ = _ := optimize_of_clears hclears
  obtain ⟨hlength, hreport⟩ := hcount _ _ _ _ _ hoptimize
  have hone : List.countP inlineConstants.changes
      [.withConstant, .new .synthetic 1 "D" .classType none] = 1 := by decide +kernel
  rw [hone] at hoptimize hreport
  exact ⟨⟨_, hrun, (hchanged _ _ _ hrun).mp rfl⟩, _, _, hoptimize, hlength, rfl,
    (Option.some.inj hreport).symm⟩

end DeclIR
