import DeclIR.Proofs.Pipeline.Standard

/-!
# Running the standard pipeline again

A second run of the standard pipeline succeeds where the first one did.  It changes nothing just
when the first run has made no constant with a literal of one that is read (`optimize_again`).  So
one run need not be enough where a constant is initialized from another one
(`optimize_not_idempotent`).
-/

namespace DeclIR

namespace Pass

variable {ε : Type} {p : Pass ε}

/-- A pass leaves a program just when it leaves each of its types. -/
lemma onProgram_eq_self_iff {q : Program} :
    p.onProgram q = q ↔ ∀ t ∈ q.types, p.result t = t := by
  obtain ⟨types⟩ := q
  rw [onProgram, Program.mk.injEq]
  simpa using List.map_eq_map_iff (f := p.result) (g := id) (l := types)

end Pass

/-! ## The pass on its own result -/

/-- The pass does not fail on what it leaves of a type. -/
lemma failure?_inlined {t : DeclaredType} (h : inlineConstants.failure? t = none) :
    inlineConstants.failure? t.inlined = none := by
  rw [inlineConstants_failure?] at h
  cases hc : t.hasConstants with
  | false =>
    rw [DeclaredType.inlined_of_hasConstants hc, inlineConstants_failure?, hc]
    rfl
  | true =>
    rw [hc] at h
    rw [inlineConstants_failure?, DeclaredType.dangling?_inlined, show t.dangling? = none from h,
      ite_self]

/-- Where no type makes it fail, the standard pass leaves each of them inlined. -/
lemma types_onProgram {p : Program} (h : inlineConstants.failures p.types = []) :
    (inlineConstants.onProgram p).types = p.types.map DeclaredType.inlined := by
  rw [Pass.failures, List.filterMap_eq_nil_iff] at h
  exact List.map_congr_left fun t ht => inlineConstants_result (h t ht)

/-- What the pass leaves of a program that it clears is a program that it clears. -/
lemma inlineConstants_clears_onProgram {verifies : Bool} {p : Program}
    (h : inlineConstants.Clears verifies p) :
    inlineConstants.Clears verifies (inlineConstants.onProgram p) := by
  have hfailures : inlineConstants.failures (inlineConstants.onProgram p).types = [] := by
    have hnone := List.filterMap_eq_nil_iff.mp h.1
    rw [types_onProgram h.1, Pass.failures, List.filterMap_eq_nil_iff, List.forall_mem_map]
    exact fun t ht => failure?_inlined (hnone t ht)
  exact ⟨hfailures, fun hv => (verify_onProgram_inlineConstants hfailures).mpr (h.2 hv)⟩

/-! ## The pipeline on its own result -/

/-- A second run succeeds on what the first one leaves.  It leaves that unchanged, and says that
nothing was changed, just when there is no read of a constant whose initializer the first run has
turned from the read of a constant into a literal. -/
theorem optimize_again (settings : Settings) (schedule schedule' : Pipeline.Schedule)
    (p q : Program) (report : Report) (h : optimize settings schedule p = .ok report q) :
    ∃ report' r, optimize settings schedule' q = .ok report' r ∧
      (r = q ↔ ∀ t ∈ p.types, ∀ f ∈ t.reads, ¬t.Promotes f) ∧
      (report'.anyChanged = false ↔ ∀ t ∈ p.types, ∀ f ∈ t.reads, ¬t.Promotes f) := by
  rw [optimize, Pipeline.run_eq_ok_iff] at h
  obtain ⟨hclears, others, -, hrun⟩ := Pipeline.clears_of_runPasses h
  cases hrun
  have hagain := inlineConstants_clears_onProgram hclears
  have hnone : ∀ t ∈ p.types, inlineConstants.failure? t.inlined = none := by
    have h := List.filterMap_eq_nil_iff.mp hagain.1
    rwa [types_onProgram hclears.1, List.forall_mem_map] at h
  refine ⟨_, _, optimize_of_clears hagain, ?_, ?_⟩
  · rw [Pass.onProgram_eq_self_iff, types_onProgram hclears.1, List.forall_mem_map]
    refine forall₂_congr fun t ht => ?_
    rw [inlineConstants_result (hnone t ht), DeclaredType.inlined_inlined_eq_iff]
  · -- No type is counted just when the pass says of each that it was not changed.
    have hcount (n : Nat) :
        Report.anyChanged ⟨[⟨inlineConstants.name, n⟩]⟩ = false ↔ n = 0 := by
      simp [Report.anyChanged]
    rw [hcount, List.countP_eq_zero, types_onProgram hclears.1, List.forall_mem_map]
    refine forall₂_congr fun t ht => ?_
    rw [Bool.not_eq_true, inlineConstants_changes (hnone t ht),
      DeclaredType.inlined_inlined_eq_iff]

/-- A second run leaves a program as it is in which no constant is initialized from another one. -/
theorem optimize_again_withConstant :
    ∃ report q, optimize {} Pipeline.inOrder ⟨[.withConstant]⟩ = .ok report q ∧
      ∃ report', optimize {} Pipeline.inOrder q = .ok report' q ∧ report'.anyChanged = false := by
  have hclears : inlineConstants.Clears true ⟨[.withConstant]⟩ :=
    inlineConstants_clears_iff.mpr (by decide +kernel)
  have hfirst : optimize {} Pipeline.inOrder ⟨[.withConstant]⟩ = _ := optimize_of_clears hclears
  obtain ⟨report', r, hagain, hsame, hquiet⟩ :=
    optimize_again {} Pipeline.inOrder Pipeline.inOrder _ _ _ hfirst
  -- The only read is that of the constant, whose initializer is a literal from the start.
  have hnone : ∀ t ∈ [DeclaredType.withConstant], ∀ f ∈ t.reads, ¬t.Promotes f := by
    have hreads : DeclaredType.withConstant.reads = [⟨0, 0⟩] := by decide +kernel
    rw [List.forall_mem_singleton, hreads, List.forall_mem_singleton]
    rintro ⟨x, e, g, hx, -, -, he, hread, -⟩
    cases hx
    cases he
    cases hread
  rw [hsame.mpr hnone] at hagain
  exact ⟨_, _, hfirst, report', hagain, hquiet.mpr hnone⟩

/-- A class with a constant, a second constant that is initialized from it, and a field that is
initialized from the second one. -/
def DeclaredType.chainOfConstants : DeclaredType :=
  let first := Field.new .synthetic (.ofChar 'K') 0 (.primitive .int) true .constant
  let second := Field.new .synthetic (.ofChar 'L') 0 (.primitive .int) true .constant
  let reader := Field.new .synthetic (.ofChar 'v') 0 (.primitive .int) true .plain
  (((DeclaredType.new .synthetic 0 "C" .classType none).insertField
    (first.declare ⟨.synthetic, .literal .synthetic (.int 1)⟩)).insertField
      (second.declare ⟨.synthetic, .staticField .synthetic ⟨0, 0⟩⟩)).insertField
        (reader.declare ⟨.synthetic, .staticField .synthetic ⟨0, 1⟩⟩)

/-- The second run gives the last field of that class its literal, and says so. -/
theorem optimize_not_idempotent :
    ¬∀ (settings : Settings) (p q : Program) (report : Report),
      optimize settings Pipeline.inOrder p = .ok report q →
        ∃ report', optimize settings Pipeline.inOrder q = .ok report' q ∧
          report'.anyChanged = false := by
  intro h
  have hclears : inlineConstants.Clears true ⟨[.chainOfConstants]⟩ :=
    inlineConstants_clears_iff.mpr (by decide +kernel)
  obtain ⟨report', hagain, hquiet⟩ := h {} _ _ _ (optimize_of_clears hclears)
  rw [optimize_of_clears (inlineConstants_clears_onProgram hclears)] at hagain
  obtain ⟨rfl, -⟩ := EStateM.Result.ok.inj hagain
  have hchanged : (inlineConstants.onProgram ⟨[.chainOfConstants]⟩).types.countP
      inlineConstants.changes = 1 := by decide +kernel
  rw [hchanged] at hquiet
  cases hquiet

end DeclIR
