import DeclIR.Proofs.Settings.Assignments
import Mathlib.Data.List.Induction

/-!
# What a configuration text gives

Apart from the place of an error, what a text gives depends on its assignments to the two known keys
only (`outcome_eq`, `verdict_filter`): the first malformed one is the error, and otherwise the last
one to each key decides (`parse_of_assignments`).
-/

namespace DeclIR.Settings

open Text

/-- The truth value of the last assignment to a key. -/
def lastFlag? (key : String) (as : List Assignment) : Option Bool :=
  (as.filter (·.key = key.toList)).getLast?.bind (·.flag?)

/-! ## Outcomes -/

/-- What a text gives: the settings or the message of the error, wherever that is. -/
def outcome (content : String) : Except String Settings := (parse content).mapError (·.message)

/-- The settings after some assignments, or what is wrong with the first malformed one. -/
def verdict (as : List Assignment) : Except String Settings :=
  match as.find? (·.IsMalformed) with
  | some a => .error a.complaint
  | none => .ok (as.foldl set {})

/-- What comes of a text is decided by its assignments. -/
lemma outcome_eq (content : String) : outcome content = verdict (assignments content) := by
  rw [outcome, verdict, parse_eq_foldlM, foldlM_place, assignments,
    ← map_assignment_placedBelow [] 0, List.find?_map]
  simp only [Function.comp_def]
  cases (placedBelow [] 0 (textLines content)).find? (·.assignment.IsMalformed) <;> rfl

/-- Assignments to other keys do not count. -/
lemma verdict_filter (as : List Assignment) : verdict (as.filter (·.IsKnown)) = verdict as := by
  have hset : (fun (s : Settings) (a : Assignment) => if a.IsKnown then s.set a else s) = set := by
    funext s a
    split
    · rfl
    · rename_i ha
      exact (set_of_unknown ha s).symm
  have hmalformed (a : Assignment) : a.IsKnown ∧ a.IsMalformed ↔ a.IsMalformed :=
    and_iff_right_of_imp And.left
  simp only [verdict, List.find?_filter, List.foldl_filter, decide_eq_true_eq, hmalformed, hset]

/-! ## The last assignment -/

/-- The last assignment to a key counts. -/
lemma lastFlag?_append_singleton (key : String) (as : List Assignment) (a : Assignment) :
    lastFlag? key (as ++ [a]) = if a.key = key.toList then a.flag? else lastFlag? key as := by
  rw [lastFlag?, List.filter_append]
  by_cases hkey : a.key = key.toList
  · rw [if_pos hkey, List.filter_singleton, decide_eq_true hkey]
    simp
  · rw [if_neg hkey, List.filter_singleton, decide_eq_false hkey]
    simp [lastFlag?]

/-- The last assignment to a key decides, if each assignment to it has a truth value. -/
lemma get_foldl_set (get : Settings → Bool) {key : String} {as : List Assignment}
    (hset : ∀ s a, get (s.set a) = if a.key = key.toList then a.flag?.getD (get s) else get s)
    (hflag : ∀ a ∈ as, a.key = key.toList → a.flag? ≠ none) (s : Settings) :
    get (as.foldl set s) = (lastFlag? key as).getD (get s) := by
  induction as using List.reverseRecOn with
  | nil => rfl
  | append_singleton as a ih =>
    rw [List.foldl_append, List.foldl_cons, List.foldl_nil, hset, lastFlag?_append_singleton]
    by_cases hkey : a.key = key.toList
    · obtain ⟨b, hb⟩ := Option.ne_none_iff_exists'.mp (hflag a (by simp) hkey)
      rw [if_pos hkey, if_pos hkey, hb]
      rfl
    · rw [if_neg hkey, if_neg hkey]
      exact ih fun a ha => hflag a (List.mem_append_left _ ha)

/-! ## Texts -/

/-- Reading fails just when an assignment is malformed. -/
lemma exists_parse_eq_error_iff {content : String} :
    (∃ d, parse content = .error d) ↔ ∃ a ∈ assignments content, a.IsMalformed := by
  constructor
  · rintro ⟨d, hd⟩
    obtain ⟨x, hfind, -⟩ := parse_eq_error_iff.mp hd
    have hmalformed : x.assignment.IsMalformed := by simpa using List.find?_some hfind
    exact ⟨_, mem_assignments_iff.mpr ⟨x, List.mem_of_find?_eq_some hfind, rfl⟩, hmalformed⟩
  · rintro ⟨a, ha, hmalformed⟩
    cases hparse : parse content with
    | error d => exact ⟨d, rfl⟩
    | ok s => exact absurd hmalformed ((parse_eq_ok_iff.mp hparse).1 a ha)

/-- The error is about the first malformed assignment. -/
lemma exists_split_of_parse_eq_error {content : String} {d : Diagnostic}
    (h : parse content = .error d) :
    ∃ earlier a later, assignments content = earlier ++ a :: later ∧
      (∀ b ∈ earlier, ¬b.IsMalformed) ∧ a.IsMalformed ∧ d.message = a.complaint := by
  obtain ⟨x, hfind, rfl⟩ := parse_eq_error_iff.mp h
  obtain ⟨hmalformed, earlier, later, hsplit, hearlier⟩ :=
    List.find?_eq_some_iff_append.mp hfind
  refine ⟨earlier.map (·.assignment), x.assignment, later.map (·.assignment), ?_, ?_,
    by simpa using hmalformed, rfl⟩
  · rw [assignments, ← map_assignment_placedBelow [] 0, hsplit, List.map_append, List.map_cons]
  · intro b hb
    obtain ⟨y, hy, rfl⟩ := List.mem_map.mp hb
    simpa using hearlier y hy

/-- Settings are read from the assignments in the section `ir` and from nothing else.  A text is
refused just when one of them gives one of the two known keys a value that is not a truth value, and
the error is about the first such one.  Otherwise the last assignment to each key decides, if there
is any.  So texts with the same assignments to these keys give the same settings or the same
message. -/
theorem parse_of_assignments (content : String) :
    ((∃ d, parse content = .error d) ↔
      ∃ a ∈ assignments content, a.IsKnown ∧ a.flag? = none) ∧
    (∀ d, parse content = .error d → ∃ earlier a later,
      assignments content = earlier ++ a :: later ∧
        (∀ b ∈ earlier, b.IsKnown → b.flag? ≠ none) ∧ a.IsKnown ∧ a.flag? = none ∧
        d.message = "expected `true` or `false` for '" ++ String.ofList a.key ++ "', found '" ++
          String.ofList (unquote a.value) ++ "'") ∧
    (∀ s, parse content = .ok s →
      s.parallel = (lastFlag? "parallel" (assignments content)).getD false ∧
        s.verifyAfterEachPass =
          (lastFlag? "verify_after_each_pass" (assignments content)).getD true) ∧
    ∀ other, (assignments other).filter (·.IsKnown) = (assignments content).filter (·.IsKnown) →
      outcome other = outcome content := by
  refine ⟨exists_parse_eq_error_iff, fun d hd => ?_, ?_, ?_⟩
  · obtain ⟨earlier, a, later, hsplit, hearlier, ⟨hkey, hflag⟩, hmessage⟩ :=
      exists_split_of_parse_eq_error hd
    have hfine : ∀ b ∈ earlier, b.IsKnown → b.flag? ≠ none := fun b hb hknown hnone =>
      hearlier b hb ⟨hknown, hnone⟩
    exact ⟨earlier, a, later, hsplit, hfine, hkey, hflag, hmessage⟩
  · intro s hs
    obtain ⟨hfine, rfl⟩ := parse_eq_ok_iff.mp hs
    constructor
    · refine get_foldl_set (·.parallel) (fun _ _ => rfl) (fun a ha hkey hnone => ?_) {}
      exact hfine a ha ⟨.inl hkey, hnone⟩
    · refine get_foldl_set (·.verifyAfterEachPass) (fun _ _ => rfl) (fun a ha hkey hnone => ?_) {}
      exact hfine a ha ⟨.inr hkey, hnone⟩
  · intro other hother
    rw [outcome_eq, outcome_eq, ← verdict_filter, hother, verdict_filter]

/-- A text that leaves the section `ir` and comes back to it, with a key that is assigned twice. -/
def reopened : String :=
  "parallel = no\n[ir]\r\nparallel = false # off\n[other]\nparallel = maybe\n[ ir ]\n" ++
    "depth = 3\n \"parallel\" = \"true\"\n"

/-- Of two malformed assignments the first is the error.  A key that is assigned again where the
section is opened again has its last value, and nothing but these two assignments counts. -/
theorem parse_of_assignments_reopened :
    (∃ d, parse "[ir]\nparallel = yes\nverify_after_each_pass = 1" = .error d ∧
      d.message = "expected `true` or `false` for 'parallel', found 'yes'") ∧
    (parse reopened = .ok ⟨true, true⟩ ∧
      true = (lastFlag? "parallel" (assignments reopened)).getD false) ∧
    outcome "[ir]\nparallel=false\nparallel = \"true\"" = outcome reopened := by
  obtain ⟨hiff, herror, -⟩ :=
    parse_of_assignments "[ir]\nparallel = yes\nverify_after_each_pass = 1"
  obtain ⟨d, hd⟩ := hiff.mpr (by decide +kernel)
  obtain ⟨-, -, hok, hother⟩ := parse_of_assignments reopened
  have hparse : parse reopened = .ok ⟨true, true⟩ := by decide +kernel
  refine ⟨⟨d, hd, ?_⟩, ⟨hparse, (hok _ hparse).1⟩, hother _ (by decide +kernel)⟩
  obtain ⟨earlier, a, later, hsplit, hearlier, -, -, hmessage⟩ := herror d hd
  have hboth : assignments "[ir]\nparallel = yes\nverify_after_each_pass = 1" =
      [⟨"parallel".toList, "yes".toList⟩, ⟨"verify_after_each_pass".toList, "1".toList⟩] := by
    decide +kernel
  rw [hboth] at hsplit
  cases earlier with
  | nil =>
    obtain ⟨rfl, -⟩ := List.cons_eq_cons.mp hsplit
    rw [hmessage]
    decide +kernel
  | cons b earlier =>
    obtain ⟨rfl, -⟩ := List.cons_eq_cons.mp hsplit
    exact absurd (by decide +kernel) (hearlier _ List.mem_cons_self (by decide +kernel))

end DeclIR.Settings
