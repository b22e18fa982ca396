import DeclIR.Proofs.Pipeline.Schedule
import Mathlib.Data.Nat.Find

/-!
# Types one by one

A run that takes the types one by one gives each pass every type as the passes before it have left
it.  It ends when all passes are through, at the first type that a pass fails at, or at the first
check that fails.  What the program is then can be said type by type: `Pipeline.Ends` lists the ways
to end, and a run ends in just the one of them that is possible (`Pipeline.run_eq_iff_ends`).
-/

namespace DeclIR

variable {ε : Type}

/-- Changing each element by its position, after all have been changed alike. -/
lemma mapIdx_map {α β γ : Type} (f : Nat → β → γ) (g : α → β) (list : List α) :
    (list.map g).mapIdx f = list.mapIdx fun i a => f i (g a) :=
  List.ext_getElem? fun i => by simp [Option.map_map, Function.comp_def]

namespace Pass

/-- What some passes leave of a type, one after the other. -/
def results (passes : List (Pass ε)) (t : DeclaredType) : DeclaredType :=
  passes.foldl (fun t p => p.result t) t

/-- What some passes leave of a program, one after the other. -/
def resultsOn (passes : List (Pass ε)) (q : Program) : Program := ⟨q.types.map (results passes)⟩

variable {p : Pass ε} {passes : List (Pass ε)} {q : Program}

lemma resultsOn_nil (q : Program) : resultsOn ([] : List (Pass ε)) q = q :=
  congrArg Program.mk (List.map_id q.types)

lemma resultsOn_cons (p : Pass ε) (rest : List (Pass ε)) (q : Program) :
    resultsOn (p :: rest) q = resultsOn rest (p.onProgram q) := by
  unfold resultsOn onProgram
  rw [List.map_map]
  rfl

/-- The first passes with one more leave what the last of them makes of what the others leave. -/
lemma results_take_succ {k : Nat} (hp : passes[k]? = some p) (t : DeclaredType) :
    results (passes.take (k + 1)) t = p.result (results (passes.take k) t) := by
  unfold results
  rw [List.take_add_one, hp, Option.toList_some, List.foldl_append]
  rfl

/-- So it is with programs. -/
lemma resultsOn_take_succ {k : Nat} (hp : passes[k]? = some p) (q : Program) :
    resultsOn (passes.take (k + 1)) q = p.onProgram (resultsOn (passes.take k) q) := by
  unfold resultsOn onProgram
  rw [List.map_map]
  exact congrArg Program.mk (List.map_congr_left fun t _ => results_take_succ hp t)

/-- A pass that fails at a type has been through those before it, and has not come to those behind
it. -/
lemma sequentially_of_error {types : List DeclaredType} {j : Nat} {t left : DeclaredType} {e : ε}
    (ht : types[j]? = some t)
    (hbelow : ∀ i < j, ∀ u, types[i]? = some u → p.failure? u = none)
    (hrun : p.run t = .error e left) :
    p.sequentially types = .error e
      (types.mapIdx fun i u => if i < j then p.result u else if i = j then left else u) := by
  induction types generalizing j with
  | nil => cases ht
  | cons u rest ih =>
    rw [List.mapIdx_cons, sequentially]
    cases j with
    | zero =>
      cases ht
      have hsame : (rest.mapIdx fun _ u => u) = rest := List.ext_getElem? (by simp)
      simp [hrun, hsame]
    | succ j =>
      have hu : p.failure? u = none := hbelow 0 (Nat.succ_pos j) u rfl
      have hrest := ih ht fun i hi => hbelow (i + 1) (Nat.succ_lt_succ hi)
      simp [run_eq_ok hu, hrest]

end Pass

namespace Pipeline

/-- Each of the first `k` passes clears what those before it leave. -/
def Reaches (verifies : Bool) (passes : List (Pass ε)) (q : Program) (k : Nat) : Prop :=
  ∀ i < k, ∀ p, passes[i]? = some p → p.Clears verifies (Pass.resultsOn (passes.take i) q)

/-- The ways in which a run can end that takes the types one by one. -/
inductive Ends (verifies : Bool) (passes : List (Pass ε)) (raise : Fault → ε) (q : Program) :
    EStateM.Result ε Program Report → Prop
  /-- All passes are through all types. -/
  | done (hreaches : Reaches verifies passes q passes.length) :
      Ends verifies passes raise q <| .ok
        ⟨passes.mapIdx fun k p =>
          ⟨p.name, (Pass.resultsOn (passes.take k) q).types.countP p.changes⟩⟩
        (Pass.resultsOn passes q)
  /-- Pass number `k` fails at type number `j`. -/
  | atType {k j : Nat} {p : Pass ε} {t left : DeclaredType} {e : ε}
      (hreaches : Reaches verifies passes q k) (hp : passes[k]? = some p)
      (ht : q.types[j]? = some t)
      (hbelow : ∀ i < j, ∀ u, q.types[i]? = some u →
        p.failure? (Pass.results (passes.take k) u) = none)
      (hrun : p.run (Pass.results (passes.take k) t) = .error e left) :
      Ends verifies passes raise q <| .error e
        ⟨q.types.mapIdx fun i u =>
          if i < j then Pass.results (passes.take (k + 1)) u
          else if i = j then left
          else Pass.results (passes.take k) u⟩
  /-- The check after pass number `k` fails. -/
  | atCheck {k : Nat} {p : Pass ε} {f : Fault}
      (hreaches : Reaches verifies passes q k) (hp : passes[k]? = some p)
      (hthrough : p.failures (Pass.resultsOn (passes.take k) q).types = [])
      (hverifies : verifies = true)
      (hcheck : (Pass.resultsOn (passes.take (k + 1)) q).verify = .error f) :
      Ends verifies passes raise q <| .error (raise f) (Pass.resultsOn (passes.take (k + 1)) q)

variable {verifies : Bool} {p : Pass ε} {passes : List (Pass ε)} {raise : Fault → ε} {q : Program}
  {k : Nat}

/-! ## Passes that are through -/

/-- A run that comes further than its first pass has passed the check behind it. -/
lemma Reaches.head {rest : List (Pass ε)} (h : Reaches verifies (p :: rest) q (k + 1)) :
    p.Clears verifies q := by
  have hp := h 0 (Nat.succ_pos k) p rfl
  rwa [List.take_zero, Pass.resultsOn_nil] at hp

/-- What is left of a run behind its first pass is a run of the others. -/
lemma Reaches.tail {rest : List (Pass ε)} (h : Reaches verifies (p :: rest) q (k + 1)) :
    Reaches verifies rest (p.onProgram q) k := by
  intro i hi p' hp'
  have hnext := h (i + 1) (Nat.succ_lt_succ hi) p' hp'
  rwa [List.take_succ_cons, Pass.resultsOn_cons] at hnext

/-- A run that reaches a pass has run the passes before it. -/
lemma Reaches.take (h : Reaches verifies passes q k) :
    Reaches verifies (passes.take k) q (passes.take k).length := by
  intro i hi p hp
  have hik : i < k := by
    rw [List.length_take] at hi
    omega
  rw [List.getElem?_take_of_lt hik] at hp
  rw [List.take_take, Nat.min_eq_left (Nat.le_of_lt hik)]
  exact h i hik p hp

/-- A run that reaches its end succeeds, and reports for each pass how many types it has changed. -/
lemma runPasses_of_reaches {settings : Settings} {schedule : Schedule}
    (h : Reaches settings.verifyAfterEachPass passes q passes.length) :
    runPasses settings raise schedule passes q = .ok
      (passes.mapIdx fun k p =>
        ⟨p.name, (Pass.resultsOn (passes.take k) q).types.countP p.changes⟩)
      (Pass.resultsOn passes q) := by
  induction passes generalizing q schedule with
  | nil =>
    rw [Pass.resultsOn_nil]
    rfl
  | cons p rest ih =>
    rw [runPasses_of_clears h.head, ih h.tail, List.mapIdx_cons]
    simp only [List.take_zero, List.take_succ_cons, Pass.resultsOn_nil, Pass.resultsOn_cons]

/-! ## Passes that fail -/

/-- A run that reaches a pass goes on with it from what the passes before it leave. -/
lemma runPasses_of_reaches_error {settings : Settings} {schedule : Schedule} {e : ε} {r : Program}
    (hreaches : Reaches settings.verifyAfterEachPass passes q k) (hp : passes[k]? = some p)
    (herror : ∀ schedule rest,
      runPasses settings raise schedule (p :: rest) (Pass.resultsOn (passes.take k) q) =
        .error e r) :
    runPasses settings raise schedule passes q = .error e r := by
  obtain ⟨hk, rfl⟩ := List.getElem?_eq_some_iff.mp hp
  have hsplit : passes = passes.take k ++ passes[k] :: passes.drop (k + 1) := by
    rw [← List.drop_eq_getElem_cons hk, List.take_append_drop]
  rw [hsplit, runPasses_append (runPasses_of_reaches hreaches.take), herror]

/-- A pass that fails at a type leaves those before it done, this one as far as it came, and the
others as they were. -/
lemma runPasses_of_failure {j : Nat} {t left : DeclaredType} {e : ε} {rest : List (Pass ε)}
    {schedule : Schedule} (ht : q.types[j]? = some t)
    (hbelow : ∀ i < j, ∀ u, q.types[i]? = some u → p.failure? u = none)
    (hrun : p.run t = .error e left) :
    runPasses ⟨false, verifies⟩ raise schedule (p :: rest) q = .error e
      ⟨q.types.mapIdx fun i u => if i < j then p.result u else if i = j then left else u⟩ := by
  have happly : apply ⟨false, verifies⟩ (schedule 0) p q = .error e
      ⟨q.types.mapIdx fun i u => if i < j then p.result u else if i = j then left else u⟩ := by
    simp [apply, Pass.sequentially_of_error ht hbelow hrun]
  rw [runPasses_cons]
  simp only [happly]

/-- A run ends with the violation that the check behind its first pass finds. -/
lemma runPasses_of_violation {settings : Settings} {f : Fault} {rest : List (Pass ε)}
    {schedule : Schedule} (hthrough : p.failures q.types = [])
    (hverifies : settings.verifyAfterEachPass = true)
    (hcheck : (p.onProgram q).verify = .error f) :
    runPasses settings raise schedule (p :: rest) q = .error (raise f) (p.onProgram q) := by
  have happly := apply_eq settings (schedule 0) p q
  have hverify := verify_eq settings raise (p.onProgram q)
  rw [hthrough] at happly
  simp only [hverifies, if_true, hcheck] at hverify
  rw [runPasses_cons]
  simp only [happly, hverify]

/-! ## How runs end -/

/-- A way to end that is possible is the one that the run takes. -/
lemma run_of_ends {schedule : Schedule} {x : EStateM.Result ε Program Report}
    (h : Ends verifies passes raise q x) :
    run ⟨⟨false, verifies⟩, passes⟩ raise schedule q = x := by
  rw [run_eq]
  -- Each way to end says how far the passes come, which is how far the run is followed here.
  cases h with
  | done hreaches =>
    have hrun : runPasses ⟨false, verifies⟩ raise schedule passes q = _ :=
      runPasses_of_reaches hreaches
    rw [hrun]
  | atType hreaches hp ht hbelow hrun =>
    have herror : runPasses ⟨false, verifies⟩ raise schedule passes q = _ :=
      runPasses_of_reaches_error hreaches hp fun schedule rest =>
        runPasses_of_failure (by rw [Pass.resultsOn, List.getElem?_map, ht, Option.map_some])
          (fun i hi u hu => by
            rw [Pass.resultsOn, List.getElem?_map] at hu
            obtain ⟨w, hw, rfl⟩ := Option.map_eq_some_iff.mp hu
            exact hbelow i hi w hw) hrun
    rw [herror]
    simp only [Pass.resultsOn, mapIdx_map, Pass.results_take_succ hp]
  | atCheck hreaches hp hthrough hverifies hcheck =>
    have herror : runPasses ⟨false, verifies⟩ raise schedule passes q = _ :=
      runPasses_of_reaches_error hreaches hp fun schedule rest =>
        runPasses_of_violation hthrough hverifies (Pass.resultsOn_take_succ hp q ▸ hcheck)
    rw [herror, Pass.resultsOn_take_succ hp]

/-- Some way to end is possible: if not all passes are through, then the first one that is not fails
at a first type, or else the check after it fails. -/
lemma exists_ends (verifies : Bool) (passes : List (Pass ε)) (raise : Fault → ε) (q : Program) :
    ∃ x, Ends verifies passes raise q x := by
  classical
  by_cases hstops : ∃ k : Nat, ∃ p : Pass ε, passes[k]? = some p ∧
      ¬p.Clears verifies (Pass.resultsOn (passes.take k) q)
  · -- The passes before the first one that does not clear are reached, and so is that one.
    obtain ⟨k, ⟨p, hp, hclears⟩, hfirst⟩ := Nat.findX hstops
    have hreaches : Reaches verifies passes q k := by
      intro i hi p hp
      by_contra hnot
      exact hfirst i hi ⟨p, hp, hnot⟩
    by_cases hfails : ∃ j : Nat, ∃ t e, q.types[j]? = some t ∧
        p.failure? (Pass.results (passes.take k) t) = some e
    · obtain ⟨j, ⟨t, e, ht, he⟩, hfirst⟩ := Nat.findX hfails
      refine ⟨_, .atType hreaches hp ht ?_ (Pass.run_eq_error he)⟩
      intro i hi u hu
      by_contra hfailure
      obtain ⟨e', he'⟩ := Option.ne_none_iff_exists'.mp hfailure
      exact hfirst i hi ⟨u, e', hu, he'⟩
    · -- It fails at no type, so it is the check after it that does not succeed.
      have hthrough : p.failures (Pass.resultsOn (passes.take k) q).types = [] := by
        rw [Pass.failures, List.filterMap_eq_nil_iff, Pass.resultsOn, List.forall_mem_map]
        intro t ht
        by_contra hfailure
        obtain ⟨e, he⟩ := Option.ne_none_iff_exists'.mp hfailure
        obtain ⟨j, hj⟩ := List.getElem?_of_mem ht
        exact hfails ⟨j, t, e, hj, he⟩
      have hchecked : verifies = true ∧
          (p.onProgram (Pass.resultsOn (passes.take k) q)).verify ≠ .ok () := by
        simpa [Pass.Clears, hthrough] using hclears
      rw [← Pass.resultsOn_take_succ hp] at hchecked
      cases hcheck : (Pass.resultsOn (passes.take (k + 1)) q).verify with
      | ok _ => exact absurd hcheck hchecked.2
      | error f => exact ⟨_, .atCheck hreaches hp hthrough hchecked.1 hcheck⟩
  · refine ⟨_, .done fun i _ p hp => ?_⟩
    by_contra hclears
    exact hstops ⟨i, p, hp, hclears⟩

/-- A run that takes the types one by one ends in the one way that is possible.  If it succeeds,
each type is what all passes leave of it, and the report counts for each pass the types that it says
it changed, as the passes before it have left them.  If a pass fails at a type, the types before it
have been through that pass and those behind it have not, no later pass is run, and the failure is
the one of the pass.  If the check after a pass fails, all types have been through that pass, and
the failure is the one of the check. -/
theorem run_eq_iff_ends (verifies : Bool) (passes : List (Pass ε)) (raise : Fault → ε)
    (schedule : Schedule) (q : Program) (x : EStateM.Result ε Program Report) :
    run ⟨⟨false, verifies⟩, passes⟩ raise schedule q = x ↔ Ends verifies passes raise q x := by
  constructor
  · rintro rfl
    obtain ⟨y, hy⟩ := exists_ends verifies passes raise q
    rw [run_of_ends hy]
    exact hy
  · exact run_of_ends

end Pipeline
end DeclIR
