import DeclIR.Proofs.Consistency.FirstFault
import DeclIR.Proofs.Traversal.Frame

/-!
# Checking type by type

One checker and one context go through all types of a program.  What they carry along from one type
takes no part in the check of another (`checker_walkType`), and no type is changed.  So checking a
program is checking each of its types on its own, by position, up to the first that is inconsistent
(`Program.verify_type_by_type`).
-/

namespace DeclIR

open Checker

/-- In any context, and whatever the checker knows from before, a type is checked as on its own and
left as it was.  A consistent type leaves the context as it was, too. -/
lemma checker_walkType (t : DeclaredType) (c : Context) (k : Checker) :
    match t.verify with
    | .ok () => checker.walkType ⟨t, c, k⟩ = .ok () ⟨t, c, k.logType t⟩
    | .error f => ∃ s, checker.walkType ⟨t, c, k⟩ = .error f s ∧ s.node = t := by
  have h := (checker_observes.walkType t c).outcome k
  rw [outcome_type] at h
  rw [DeclaredType.verify_eq]
  cases hf : t.firstFault? with
  | none =>
    rw [hf] at h
    exact h
  | some f =>
    rw [hf] at h
    exact h

/-- The check of a program leaves it as it was, whether it succeeds or not. -/
lemma Program.node_traverse_checker (p : Program) :
    (endState (p.traverse checker {})).node = p := by
  have h := p.traverse_checker
  cases hf : p.types.findSome? DeclaredType.firstFault? with
  | none =>
    rw [hf] at h
    obtain ⟨s, hs, hnode⟩ := h
    rw [hs]
    exact hnode
  | some f =>
    rw [hf] at h
    obtain ⟨s, hs, hnode⟩ := h
    rw [hs]
    exact hnode

/-- Checking types one after the other ends at the first that is inconsistent. -/
lemma forM_verify (types : List DeclaredType) :
    types.forM DeclaredType.verify = match types.findSome? DeclaredType.firstFault? with
      | some f => .error f
      | none => .ok () := by
  induction types with
  | nil => rfl
  | cons t rest ih =>
    rw [List.forM, DeclaredType.verify_eq, List.findSome?_cons]
    cases t.firstFault? with
    | some f => rfl
    | none => exact ih

/-- The check of a program changes nothing, and gives what the checks of its types on their own give
by position: the first fault, or none.  What the checker and the context carry along from before
changes neither the verdict on a type nor its fault. -/
theorem Program.verify_type_by_type (p : Program) :
    (endState (p.traverse checker {})).node = p ∧
    p.verify = p.types.forM DeclaredType.verify ∧
    ∀ (t : DeclaredType) (c : Context) (k : Checker),
      match t.verify with
      | .ok () => ∃ k', checker.walkType ⟨t, c, k⟩ = .ok () ⟨t, c, k'⟩
      | .error f => ∃ s, checker.walkType ⟨t, c, k⟩ = .error f s ∧ s.node = t := by
  refine ⟨p.node_traverse_checker, ?_, ?_⟩
  · exact p.verify_eq.trans (forM_verify p.types).symm
  · intro t c k
    have h := checker_walkType t c k
    cases hv : t.verify with
    | ok _ =>
      rw [hv] at h
      exact ⟨_, h⟩
    | error f =>
      rw [hv] at h
      exact h

end DeclIR
