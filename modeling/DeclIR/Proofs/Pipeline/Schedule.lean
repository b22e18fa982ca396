import DeclIR.Proofs.Consistency.FirstFault
import DeclIR.Proofs.Pipeline.OnePass

/-!
# Schedules do not matter

Whether a pass succeeds on a program, and what it leaves then, does not depend on how the types are
scheduled (`Pass.Clears`).  Only which failure is reported does, and it does so only if several
types fail in the same pass.  By induction over the passes this holds of whole runs.
-/

namespace DeclIR

variable {ε : Type}

namespace Pass

/-- A pass fails at no type of a program, and leaves a program that passes the check if `verifies`
says that it is checked. -/
def Clears (p : Pass ε) (verifies : Bool) (q : Program) : Prop :=
  p.failures q.types = [] ∧ (verifies = true → (p.onProgram q).verify = .ok ())

/-- The failures that a pass can end a run with: those at the types of the program, or else that of
the check. -/
def Raises (p : Pass ε) (verifies : Bool) (raise : Fault → ε) (q : Program) (e : ε) : Prop :=
  e ∈ p.failures q.types ∨
    p.failures q.types = [] ∧ verifies = true ∧
      ∃ f, (p.onProgram q).verify = .error f ∧ raise f = e

/-- With one failure at most, there is only one error to report. -/
lemma Raises.unique {p : Pass ε} {verifies : Bool} {raise : Fault → ε} {q : Program} {e e' : ε}
    (hone : (p.failures q.types).length ≤ 1) (h : p.Raises verifies raise q e)
    (h' : p.Raises verifies raise q e') : e = e' := by
  rcases h with h | ⟨hnone, -, f, hf, rfl⟩
  · rcases h' with h' | ⟨hnone, -⟩
    · obtain ⟨i, hi, rfl⟩ := List.mem_iff_getElem.mp h
      obtain ⟨j, hj, rfl⟩ := List.mem_iff_getElem.mp h'
      have hij : i = j := by omega
      subst hij
      rfl
    · rw [hnone] at h
      cases h
  · rcases h' with h' | ⟨-, -, f', hf', rfl⟩
    · rw [hnone] at h'
      cases h'
    · rw [hf] at hf'
      cases hf'
      rfl

end Pass

namespace Pipeline

variable {settings : Settings} {raise : Fault → ε} {schedule : Schedule} {p : Pass ε}
  {rest : List (Pass ε)} {q : Program}

/-- The check between passes changes nothing. -/
lemma verify_eq (settings : Settings) (raise : Fault → ε) (q : Program) :
    verify settings raise q =
      match if settings.verifyAfterEachPass then q.verify else .ok () with
      | .ok () => .ok () q
      | .error f => .error (raise f) q := by
  have h := q.traverse_checker
  cases hv : settings.verifyAfterEachPass with
  | false => simp [verify, hv]
  | true =>
    simp only [verify, hv, if_true, Program.verify_eq]
    cases hf : q.types.findSome? DeclaredType.firstFault? with
    | some f =>
      rw [hf] at h
      obtain ⟨s, hs, hnode⟩ := h
      simp only [hs, hnode]
    | none =>
      rw [hf] at h
      obtain ⟨s, hs, hnode⟩ := h
      simp only [hs, hnode]

/-- A run of several passes is one of the first pass, the check behind it, and one of the others. -/
lemma runPasses_cons (settings : Settings) (raise : Fault → ε) (schedule : Schedule) (p : Pass ε)
    (rest : List (Pass ε)) :
    runPasses settings raise schedule (p :: rest) = fun q =>
      match apply settings (schedule 0) p q with
      | .error e q => .error e q
      | .ok changedTypes q =>
        match verify settings raise q with
        | .error e q => .error e q
        | .ok _ q =>
          match runPasses settings raise (fun k => schedule (k + 1)) rest q with
          | .error e q => .error e q
          | .ok outcomes q => .ok (⟨p.name, changedTypes⟩ :: outcomes) q := by
  funext q
  simp only [runPasses, bind, EStateM.bind]
  cases apply settings (schedule 0) p q with
  | error e q => rfl
  | ok changedTypes q =>
    simp only
    cases verify settings raise q with
    | error e q => rfl
    | ok _ q =>
      simp only
      cases runPasses settings raise (fun k => schedule (k + 1)) rest q <;> rfl

/-- A pass that clears a program hands it on. -/
lemma runPasses_of_clears (h : p.Clears settings.verifyAfterEachPass q) :
    runPasses settings raise schedule (p :: rest) q =
      match runPasses settings raise (fun k => schedule (k + 1)) rest (p.onProgram q) with
      | .error e r => .error e r
      | .ok outcomes r => .ok (⟨p.name, q.types.countP p.changes⟩ :: outcomes) r := by
  have happly := apply_eq settings (schedule 0) p q
  rw [h.1] at happly
  have hverify : verify settings raise (p.onProgram q) = .ok () (p.onProgram q) := by
    rw [verify_eq]
    cases hv : settings.verifyAfterEachPass with
    | false => rfl
    | true => simp only [if_true, h.2 hv]
  rw [runPasses_cons]
  simp only [happly, hverify]

/-- A pass that does not clear a program ends the run. -/
lemma runPasses_of_not_clears (settings : Settings) (raise : Fault → ε) (schedule : Schedule)
    (rest : List (Pass ε)) (h : ¬p.Clears settings.verifyAfterEachPass q) :
    ∃ e left, p.Raises settings.verifyAfterEachPass raise q e ∧
      runPasses settings raise schedule (p :: rest) q = .error e left := by
  have happly := apply_eq settings (schedule 0) p q
  rw [runPasses_cons]
  cases hf : p.failures q.types with
  | cons e tail =>
    -- The program is not checked after a failure at one of its types.
    rw [hf] at happly
    obtain ⟨e', he', left, happly⟩ := happly
    exact ⟨e', left, .inl (hf ▸ he'), by simp only [happly]⟩
  | nil =>
    rw [hf] at happly
    have hchecked : settings.verifyAfterEachPass = true ∧ (p.onProgram q).verify ≠ .ok () := by
      simpa [Pass.Clears, hf] using h
    have hverify := verify_eq settings raise (p.onProgram q)
    cases hv : (p.onProgram q).verify with
    | ok _ => exact absurd hv hchecked.2
    | error f =>
      simp only [hchecked.1, if_true, hv] at hverify
      refine ⟨raise f, p.onProgram q, .inr ⟨hf, hchecked.1, f, hv, rfl⟩, ?_⟩
      simp only [happly, hverify]

/-- A run that succeeds clears its first pass, and goes on from what that leaves. -/
lemma clears_of_runPasses {outcomes : List PassOutcome} {r : Program}
    (h : runPasses settings raise schedule (p :: rest) q = .ok outcomes r) :
    p.Clears settings.verifyAfterEachPass q ∧ ∃ others,
      outcomes = ⟨p.name, q.types.countP p.changes⟩ :: others ∧
        runPasses settings raise (fun k => schedule (k + 1)) rest (p.onProgram q) =
          .ok others r := by
  by_cases hp : p.Clears settings.verifyAfterEachPass q
  · rw [runPasses_of_clears hp] at h
    cases hrun : runPasses settings raise (fun k => schedule (k + 1)) rest (p.onProgram q) with
    | error e left =>
      rw [hrun] at h
      cases h
    | ok others left =>
      rw [hrun] at h
      cases h
      exact ⟨hp, others, rfl, rfl⟩
  · obtain ⟨e, left, -, herror⟩ := runPasses_of_not_clears settings raise schedule rest hp
    rw [herror] at h
    cases h

/-- Passes after others start from what those leave. -/
lemma runPasses_append {before : List (Pass ε)} {outcomes : List PassOutcome} {r : Program}
    (h : runPasses settings raise schedule before q = .ok outcomes r) :
    runPasses settings raise schedule (before ++ rest) q =
      match runPasses settings raise (fun k => schedule (k + before.length)) rest r with
      | .error e left => .error e left
      | .ok others left => .ok (outcomes ++ others) left := by
  induction before generalizing q schedule outcomes with
  | nil =>
    cases h
    show runPasses settings raise schedule rest r =
      match runPasses settings raise schedule rest r with
      | .error e left => .error e left
      | .ok others left => .ok ([] ++ others) left
    cases runPasses settings raise schedule rest r <;> rfl
  | cons b before ih =>
    obtain ⟨hb, others, rfl, hrun⟩ := clears_of_runPasses h
    rw [List.cons_append, runPasses_of_clears hb, ih hrun]
    -- The schedule of the rest begins one pass later than the one of `before`.
    simp only [List.length_cons, Nat.add_assoc, List.cons_append]
    cases runPasses settings raise _ rest r <;> rfl

/-- Whether passes succeed depends neither on the schedule nor on whether there is one. -/
lemma runPasses_agree {settings' : Settings} {schedule' : Schedule}
    (hverify : settings.verifyAfterEachPass = settings'.verifyAfterEachPass)
    {passes : List (Pass ε)} {outcomes : List PassOutcome} {r : Program}
    (h : runPasses settings raise schedule passes q = .ok outcomes r) :
    runPasses settings' raise schedule' passes q = .ok outcomes r := by
  induction passes generalizing q schedule schedule' outcomes with
  | nil => exact h
  | cons p rest ih =>
    obtain ⟨hp, others, rfl, hrun⟩ := clears_of_runPasses h
    rw [runPasses_of_clears (hverify ▸ hp), ih hrun]

lemma run_eq (l : Pipeline ε) (raise : Fault → ε) (schedule : Schedule) (q : Program) :
    run l raise schedule q = match runPasses l.settings raise schedule l.passes q with
      | .ok outcomes r => .ok ⟨outcomes⟩ r
      | .error e r => .error e r := by
  simp only [run, bind, EStateM.bind]
  cases runPasses l.settings raise schedule l.passes q <;> rfl

/-- A pipeline succeeds just when its passes do, and its report lists theirs. -/
lemma run_eq_ok_iff {l : Pipeline ε} {report : Report} {r : Program} :
    run l raise schedule q = .ok report r ↔
      runPasses l.settings raise schedule l.passes q = .ok report.passes r := by
  rw [run_eq]
  cases runPasses l.settings raise schedule l.passes q with
  | error e left => simp
  | ok outcomes left =>
    obtain ⟨passes⟩ := report
    simp

/-- A run that works on all types of a pass at once succeeds just when one that works on them one by
one does, and then both leave the same program and give the same report.  If both fail, and no more
than one type fails in the pass that they fail at, both fail with the same error. -/
theorem run_agrees (verifies : Bool) (passes : List (Pass ε)) (raise : Fault → ε)
    (schedule schedule' : Schedule) (q : Program) :
    (∀ report r,
      run ⟨⟨true, verifies⟩, passes⟩ raise schedule q = .ok report r ↔
        run ⟨⟨false, verifies⟩, passes⟩ raise schedule' q = .ok report r) ∧
    ∀ before p after report r, passes = before ++ p :: after →
      run ⟨⟨false, verifies⟩, before⟩ raise schedule' q = .ok report r →
      (∀ report' r', run ⟨⟨false, verifies⟩, before ++ [p]⟩ raise schedule' q ≠ .ok report' r') →
      (p.failures r.types).length ≤ 1 →
      ∃ e left left', run ⟨⟨true, verifies⟩, passes⟩ raise schedule q = .error e left ∧
        run ⟨⟨false, verifies⟩, passes⟩ raise schedule' q = .error e left' := by
  constructor
  · intro report r
    rw [run_eq_ok_iff, run_eq_ok_iff]
    exact ⟨fun h => runPasses_agree (by rfl) h, fun h => runPasses_agree (by rfl) h⟩
  · rintro before p after report r rfl hbefore hfails hone
    rw [run_eq_ok_iff] at hbefore
    -- If the pass cleared the program, the run up to it would have succeeded.
    have hstops : ¬p.Clears verifies r := by
      intro hp
      refine hfails ⟨report.passes ++ [⟨p.name, r.types.countP p.changes⟩]⟩ (p.onProgram r) ?_
      rw [run_eq_ok_iff, runPasses_append hbefore, runPasses_of_clears hp]
      rfl
    have hbefore' : runPasses ⟨true, verifies⟩ raise schedule before q = .ok report.passes r :=
      runPasses_agree (by rfl) hbefore
    obtain ⟨e, left, he, hrun⟩ := runPasses_of_not_clears ⟨true, verifies⟩ raise
      (fun k => schedule (k + before.length)) after hstops
    obtain ⟨e', left', he', hrun'⟩ := runPasses_of_not_clears ⟨false, verifies⟩ raise
      (fun k => schedule' (k + before.length)) after hstops
    -- Both runs end at the same pass, and it has only one failure to give.
    obtain rfl := he.unique hone he'
    refine ⟨e, left, left', ?_, ?_⟩
    · rw [run_eq, runPasses_append hbefore', hrun]
    · rw [run_eq, runPasses_append hbefore, hrun']

/-- A pass that refuses interfaces. -/
def refuseInterfaces : Pass String where
  name := "refuse-interfaces"
  run t := if t.kind = .interfaceType then .error t.name t else .ok false t

/-- A class and an interface. -/
def classAndInterface : Program :=
  ⟨[.new .synthetic 0 "C" .classType none, .new .synthetic 1 "I" .interfaceType none]⟩

/-- The interface is the only type that is refused, so both kinds of runs name it. -/
theorem run_agrees_classAndInterface :
    run ⟨⟨false, true⟩, []⟩ Fault.message inOrder classAndInterface = .ok {} classAndInterface ∧
    (refuseInterfaces.failures classAndInterface.types).length ≤ 1 ∧
    ∃ e left left',
      run ⟨⟨true, true⟩, [refuseInterfaces]⟩ Fault.message inOrder classAndInterface =
        .error e left ∧
      run ⟨⟨false, true⟩, [refuseInterfaces]⟩ Fault.message inOrder classAndInterface =
        .error e left' :=
  ⟨rfl, by decide, (run_agrees true [refuseInterfaces] Fault.message inOrder inOrder
    classAndInterface).2 [] refuseInterfaces [] {} classAndInterface rfl rfl
      (fun _ _ h => by cases h) (by decide)⟩

end Pipeline
end DeclIR
