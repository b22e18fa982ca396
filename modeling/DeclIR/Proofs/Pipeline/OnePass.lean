import DeclIR.Pass.Pipeline
import Mathlib.Algebra.Order.Ring.Nat
import Mathlib.Data.List.Basic
import Mathlib.Tactic.Lemma

/-!
# One pass over the types of a program

A pass treats each type by itself, so what it makes of a program is known type by type.  It leaves
`p.result t` of the type `t`, says by `p.changes t` whether that is a change, and may fail at it
with `p.failure? t`.

If no type fails, the pass ends the same whether it works on the types one by one or on all of them
at once, in whatever order they finish.  Otherwise it fails with the failure of one of the types
(`Pipeline.apply_eq`).
-/

namespace DeclIR

namespace Pass

variable {ε : Type} (p : Pass ε)

/-- The failure of a pass at a type, if it fails there. -/
def failure? (t : DeclaredType) : Option ε :=
  match p.run t with
  | .ok _ _ => none
  | .error e _ => some e

/-- What a pass leaves of a type, whether it fails or not. -/
def result (t : DeclaredType) : DeclaredType :=
  match p.run t with
  | .ok _ t => t
  | .error _ t => t

/-- Whether a pass says that it changed a type. -/
def changes (t : DeclaredType) : Bool :=
  match p.run t with
  | .ok changed _ => changed
  | .error _ _ => false

/-- The failures of a pass at the types of a program, by position. -/
def failures (types : List DeclaredType) : List ε := types.filterMap p.failure?

variable {p}

/-- Where a pass does not fail it returns whether it changes the type, with the type that it leaves.
-/
lemma run_eq_ok {t : DeclaredType} (h : p.failure? t = none) :
    p.run t = .ok (p.changes t) (p.result t) := by
  rw [failure?] at h
  rw [changes, result]
  cases hrun : p.run t with
  | ok changed t' => rfl
  | error e t' =>
    rw [hrun] at h
    cases h

/-- Where a pass fails it leaves what it has done until then. -/
lemma run_eq_error {t : DeclaredType} {e : ε} (h : p.failure? t = some e) :
    p.run t = .error e (p.result t) := by
  rw [failure?] at h
  rw [result]
  cases hrun : p.run t with
  | ok changed t' =>
    rw [hrun] at h
    cases h
  | error e' t' =>
    rw [hrun] at h
    cases h
    rfl

/-! ## One type after the other -/

/-- One after the other, the types are all done, or the first failure ends the pass. -/
lemma sequentially_eq (types : List DeclaredType) :
    match p.failures types with
    | [] => p.sequentially types = .ok (types.countP p.changes) (types.map p.result)
    | e :: _ => ∃ left, p.sequentially types = .error e left := by
  induction types with
  | nil => rfl
  | cons t rest ih =>
    -- The head decides whether the pass goes on; its failure would be the first one.
    cases ht : p.failure? t with
    | some e =>
      rw [failures, List.filterMap_cons_some ht]
      exact ⟨p.result t :: rest, by rw [sequentially, run_eq_error ht]⟩
    | none =>
      rw [failures, List.filterMap_cons_none ht, ← failures, sequentially, run_eq_ok ht]
      cases hrest : p.failures rest with
      | nil =>
        rw [hrest] at ih
        simp only [ih, List.countP_cons, List.map_cons]
        cases p.changes t <;> simp [Nat.add_comm]
      | cons e tail =>
        rw [hrest] at ih
        obtain ⟨left, ih⟩ := ih
        exact ⟨p.result t :: left, by simp only [ih]⟩

/-! ## All types at once -/

/-- What holds of the progress while the types at `rest` still have to be worked on. -/
structure Progress.Valid (p : Pass ε) (types : List DeclaredType) (rest : List Nat)
    (s : Progress ε) : Prop where
  untouched : ∀ i ∈ rest, s.types[i]? = types[i]?
  failure_mem : ∀ e, s.failure = some e → e ∈ p.failures types

section Concurrently

variable {types : List DeclaredType} (persists : Nat → Bool) {s : Progress ε} {i : Nat}
  {rest : List Nat}

/-- A worker does a type that the pass does not fail at. -/
lemma workOn_of_ok {t : DeclaredType} (hs : s.failure = none) (ht : s.types[i]? = some t)
    (hp : p.failure? t = none) :
    p.workOn persists s i =
      { types := s.types.set i (p.result t), changed := s.changed + (p.changes t).toNat } := by
  simp [workOn, hs, ht, run_eq_ok hp]

/-- A worker that fails notes the failure. -/
lemma workOn_of_error {t : DeclaredType} {e : ε} (hs : s.failure = none)
    (ht : s.types[i]? = some t) (hp : p.failure? t = some e) :
    (p.workOn persists s i).failure = some e := by
  simp [workOn, hs, ht, run_eq_error hp]

/-- A failure that is noted stays noted. -/
lemma isSome_failure_workOn (hs : s.failure.isSome) :
    (p.workOn persists s i).failure.isSome := by
  rw [workOn]
  split
  · exact hs
  · split
    · exact hs
    · split
      · exact hs
      · simp

/-- Working on a type leaves the others as they are, and fails only where the pass does. -/
lemma Progress.Valid.workOn (hs : s.Valid p types (i :: rest)) (hi : i ∉ rest) :
    (p.workOn persists s i).Valid p types rest := by
  have hrest : ∀ j ∈ rest, s.types[j]? = types[j]? := fun j hj =>
    hs.untouched j (List.mem_cons_of_mem i hj)
  have hset : ∀ j ∈ rest, ∀ t, (s.types.set i t)[j]? = types[j]? := by
    intro j hj t
    have hne : i ≠ j := fun h => hi (h ▸ hj)
    rw [List.getElem?_set_ne hne, hrest j hj]
  rw [Pass.workOn]
  split
  · -- Another type has failed, and this one is let be.
    exact ⟨hrest, hs.failure_mem⟩
  · cases ht : s.types[i]? with
    | none => exact ⟨hrest, hs.failure_mem⟩
    | some t =>
      cases hp : p.failure? t with
      | none =>
        simp only [run_eq_ok hp]
        exact ⟨fun j hj => hset j hj _, hs.failure_mem⟩
      | some e =>
        simp only [run_eq_error hp]
        refine ⟨fun j hj => hset j hj _, ?_⟩
        -- The failure is an earlier one or that of the type at hand, which is still untouched.
        intro e' he'
        rcases Option.or_eq_some_iff.mp he' with he' | ⟨-, he'⟩
        · exact hs.failure_mem e' he'
        · cases he'
          rw [hs.untouched i List.mem_cons_self] at ht
          exact List.mem_filterMap.mpr ⟨t, List.mem_of_getElem? ht, hp⟩

/-- The progress is valid when all types have been taken up. -/
lemma Progress.Valid.foldl (hs : s.Valid p types rest) (hrest : rest.Nodup) :
    (rest.foldl (p.workOn persists) s).Valid p types [] := by
  induction rest generalizing s with
  | nil => exact hs
  | cons i rest ih =>
    obtain ⟨hi, hrest⟩ := List.nodup_cons.mp hrest
    exact ih (hs.workOn persists hi) hrest

lemma isSome_failure_foldl (hs : s.failure.isSome) :
    (rest.foldl (p.workOn persists) s).failure.isSome := by
  induction rest generalizing s with
  | nil => exact hs
  | cons i rest ih => exact ih (isSome_failure_workOn persists hs)

/-- A type that fails makes the whole fail, at the latest when it is worked on. -/
lemma isSome_failure_of_mem (hs : s.Valid p types rest) (hrest : rest.Nodup) {t : DeclaredType}
    {e : ε} (hi : i ∈ rest) (ht : types[i]? = some t) (hp : p.failure? t = some e) :
    (rest.foldl (p.workOn persists) s).failure.isSome := by
  induction rest generalizing s with
  | nil => cases hi
  | cons j rest ih =>
    obtain ⟨hj, hrest⟩ := List.nodup_cons.mp hrest
    rw [List.foldl_cons]
    rcases List.mem_cons.mp hi with rfl | hi
    · -- If nothing has failed before this position is reached, its type is not let be.
      refine isSome_failure_foldl persists ?_
      cases hf : s.failure with
      | some e' => exact isSome_failure_workOn persists (by rw [hf]; rfl)
      | none => rw [workOn_of_error persists hf (hs.untouched i List.mem_cons_self ▸ ht) hp]; rfl
    · exact ih (hs.workOn persists hj) hrest hi

/-- How much working on the type at a position adds to the number of changed types. -/
def changeAt (p : Pass ε) (types : List DeclaredType) (i : Nat) : Nat :=
  match types[i]? with
  | some t => (p.changes t).toNat
  | none => 0

/-- Where no type fails, each one worked on is left as the pass leaves it. -/
lemma foldl_workOn (hnone : p.failures types = []) (hrest : rest.Nodup)
    (hlt : ∀ i ∈ rest, i < types.length) (hs : s.Valid p types rest) (hf : s.failure = none) :
    rest.foldl (p.workOn persists) s =
      { types := s.types.mapIdx fun i t => if i ∈ rest then p.result t else t
        changed := s.changed + (rest.map (p.changeAt types)).sum } := by
  induction rest generalizing s with
  | nil =>
    have hsame : (s.types.mapIdx fun _ t => t) = s.types := List.ext_getElem? (by simp)
    obtain ⟨⟩ := s
    subst hf
    simp [hsame]
  | cons i rest ih =>
    obtain ⟨hi, hrest⟩ := List.nodup_cons.mp hrest
    have hi' : i < types.length := hlt i List.mem_cons_self
    have ht : types[i]? = some types[i] := List.getElem?_eq_getElem hi'
    have hs' : s.types[i]? = some types[i] := by rw [hs.untouched i List.mem_cons_self, ht]
    have hp : p.failure? types[i] = none :=
      List.filterMap_eq_nil_iff.mp hnone _ (List.getElem_mem hi')
    have hstep := workOn_of_ok persists hf hs' hp
    have hvalid := hs.workOn persists hi
    rw [hstep] at hvalid
    rw [List.foldl_cons, hstep, ih hrest (fun j hj => hlt j (List.mem_cons_of_mem i hj)) hvalid rfl]
    have hchange : p.changeAt types i = (p.changes types[i]).toNat := by rw [changeAt, ht]
    -- The position is not among the rest, so its type is not worked on again.
    have htypes : ((s.types.set i (p.result types[i])).mapIdx fun j t =>
        if j ∈ rest then p.result t else t) =
        s.types.mapIdx fun j t => if j ∈ i :: rest then p.result t else t := by
      refine List.ext_getElem? fun j => ?_
      rw [List.getElem?_mapIdx, List.getElem?_mapIdx, List.getElem?_set]
      by_cases hj : i = j
      · subst hj
        have hlen := (List.getElem?_eq_some_iff.mp hs').1
        rw [hs']
        simp [hi, hlen]
      · simp [hj, Ne.symm hj]
    rw [htypes, List.map_cons, List.sum_cons, hchange, Nat.add_assoc]

end Concurrently

/-- Each position adds what its type does. -/
lemma sum_changeAt (types : List DeclaredType) :
    ((List.range types.length).map (p.changeAt types)).sum = types.countP p.changes := by
  induction types with
  | nil => rfl
  | cons t rest ih =>
    have hsucc : p.changeAt (t :: rest) ∘ Nat.succ = p.changeAt rest := by
      funext i
      simp only [Function.comp, changeAt, List.getElem?_cons_succ]
    have hzero : p.changeAt (t :: rest) 0 = (p.changes t).toNat := rfl
    rw [List.length_cons, List.range_succ_eq_map, List.map_cons, List.map_map, hsucc,
      List.sum_cons, ih, hzero, List.countP_cons]
    cases p.changes t <;> simp [Nat.add_comm]

/-- In any order, the types are all done, or one of the failures is reported. -/
theorem concurrently_eq (types : List DeclaredType) (order : FinishOrder types.length) :
    match p.failures types with
    | [] => p.concurrently types order = .ok (types.countP p.changes) (types.map p.result)
    | _ :: _ => ∃ e ∈ p.failures types, ∃ left, p.concurrently types order = .error e left := by
  have hnodup : order.positions.Nodup := order.perm.nodup_iff.mpr List.nodup_range
  have hmem (i : Nat) : i ∈ order.positions ↔ i < types.length := by
    rw [order.perm.mem_iff, List.mem_range]
  have hstart : Progress.Valid p types order.positions { types } :=
    ⟨fun _ _ => rfl, fun _ h => by cases h⟩
  rw [concurrently]
  cases hf : p.failures types with
  | nil =>
    -- Every position is worked on, and what each adds does not depend on the order.
    have hend := foldl_workOn order.persists hf hnodup (fun i => (hmem i).mp) hstart rfl
    have htypes : (types.mapIdx fun i t => if i ∈ order.positions then p.result t else t) =
        types.map p.result := by
      refine List.ext_getElem? fun i => ?_
      rw [List.getElem?_mapIdx, List.getElem?_map]
      by_cases hi : i < types.length
      · simp [hmem, hi]
      · simp [Nat.not_lt.mp hi]
    simp only [hend, htypes, Nat.zero_add, (order.perm.map _).sum_nat, sum_changeAt]
  | cons e tail =>
    -- The position of one failure is reached in any order, but another one may come first.
    obtain ⟨t, ht, hp⟩ := List.mem_filterMap.mp (hf ▸ List.mem_cons_self : e ∈ p.failures types)
    obtain ⟨i, hi, rfl⟩ := List.mem_iff_getElem.mp ht
    have hsome := isSome_failure_of_mem order.persists hstart hnodup
      ((hmem i).mpr hi) (List.getElem?_eq_getElem hi) hp
    have hvalid := hstart.foldl order.persists hnodup
    obtain ⟨e', he'⟩ := Option.isSome_iff_exists.mp hsome
    exact ⟨e', hf ▸ hvalid.failure_mem e' he', by simp only [he']; exact ⟨_, rfl⟩⟩

/-- What a pass leaves of a program. -/
def onProgram (p : Pass ε) (q : Program) : Program := ⟨q.types.map p.result⟩

end Pass

/-- One pass over a program, by either way to work on its types. -/
theorem Pipeline.apply_eq {ε : Type} (settings : Settings) (order : (n : Nat) → FinishOrder n)
    (p : Pass ε) (q : Program) :
    match p.failures q.types with
    | [] => apply settings order p q = .ok (q.types.countP p.changes) (p.onProgram q)
    | _ :: _ => ∃ e ∈ p.failures q.types, ∃ left, apply settings order p q = .error e left := by
  have hsequentially := p.sequentially_eq q.types
  have hconcurrently := p.concurrently_eq q.types (order q.types.length)
  cases hf : p.failures q.types with
  | nil =>
    rw [hf] at hsequentially hconcurrently
    simp only [apply, hsequentially, hconcurrently, ite_self, Pass.onProgram]
  | cons e tail =>
    rw [hf] at hsequentially hconcurrently
    cases hparallel : settings.parallel with
    | true =>
      obtain ⟨e', he', left, h⟩ := hconcurrently
      exact ⟨e', he', ⟨left⟩, by simp only [apply, hparallel, if_true, h]⟩
    | false =>
      obtain ⟨left, h⟩ := hsequentially
      exact ⟨e, List.mem_cons_self, ⟨left⟩, by simp [apply, hparallel, h]⟩

end DeclIR
