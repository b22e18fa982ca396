import DeclIR.Settings.Search
import Mathlib.Data.List.DropRight
import Mathlib.Tactic.Lemma

/-!
# The nearest configuration file

The search begins in a directory and goes up from it, by one name of its path at a time
(`Path.parent?`), until it finds the file or there is no name left to take away (`Searches`).  Each
directory that it comes to is the path as far as one of its names (`Path.upTo`), so the search ends
after one look for each name and one more, and what it finds is in the longest such path that has
the file (`find?_nearest`).
-/

namespace DeclIR.Settings

namespace Path

variable {p : Path} {xs ys : List String} {piece : String} {k m : Nat}

/-! ## Names -/

/-- The pieces that lead somewhere. -/
def namesOf (xs : List String) : List String := xs.filter fun piece => !isIdle piece

/-- The names in a path. -/
def names (p : Path) : List String := namesOf p.pieces

lemma namesOf_append : namesOf (xs ++ ys) = namesOf xs ++ namesOf ys := List.filter_append ..

lemma namesOf_cons_of_idle (h : isIdle piece = true) : namesOf (piece :: xs) = namesOf xs :=
  List.filter_cons_of_neg (by simp [h])

lemma namesOf_cons_of_not_idle (h : isIdle piece = false) :
    namesOf (piece :: xs) = piece :: namesOf xs :=
  List.filter_cons_of_pos (by simp [h])

/-- The pieces as far as the `k`-th name. -/
def cutBehind : Nat → List String → List String
  | 0, _ => []
  | _ + 1, [] => []
  | k + 1, piece :: rest =>
    if isIdle piece then piece :: cutBehind (k + 1) rest else piece :: cutBehind k rest

@[simp] lemma cutBehind_zero : cutBehind 0 xs = [] := by
  cases xs <;> rfl

@[simp] lemma cutBehind_nil : cutBehind k [] = [] := by
  cases k <;> rfl

lemma cutBehind_cons_of_idle (h : isIdle piece = true) :
    cutBehind (k + 1) (piece :: xs) = piece :: cutBehind (k + 1) xs := by
  rw [cutBehind, if_pos h]

lemma cutBehind_cons_of_not_idle (h : isIdle piece = false) :
    cutBehind (k + 1) (piece :: xs) = piece :: cutBehind k xs := by
  rw [cutBehind, if_neg (by simp [h])]

/-- As far as the `k`-th name there are `k` names, if there are so many. -/
lemma namesOf_cutBehind : namesOf (cutBehind k xs) = (namesOf xs).take k := by
  induction xs generalizing k with
  | nil => simp [namesOf]
  | cons piece xs ih =>
    cases k with
    | zero => simp [namesOf]
    | succ k =>
      cases h : isIdle piece with
      | true => rw [cutBehind_cons_of_idle h, namesOf_cons_of_idle h, namesOf_cons_of_idle h, ih]
      | false =>
        rw [cutBehind_cons_of_not_idle h, namesOf_cons_of_not_idle h, namesOf_cons_of_not_idle h,
          ih, List.take_succ_cons]

/-- What is behind the last of the names does not count. -/
lemma cutBehind_append (h : k ≤ (namesOf xs).length) : cutBehind k (xs ++ ys) = cutBehind k xs := by
  induction xs generalizing k with
  | nil =>
    have hk : k = 0 := by simpa [namesOf] using h
    subst hk
    simp
  | cons piece xs ih =>
    cases k with
    | zero => simp
    | succ k =>
      rw [List.cons_append]
      cases hidle : isIdle piece with
      | true =>
        rw [namesOf_cons_of_idle hidle] at h
        rw [cutBehind_cons_of_idle hidle, cutBehind_cons_of_idle hidle, ih h]
      | false =>
        rw [namesOf_cons_of_not_idle hidle, List.length_cons] at h
        rw [cutBehind_cons_of_not_idle hidle, cutBehind_cons_of_not_idle hidle, ih (by omega)]

/-- Of two cuts the nearer one counts. -/
lemma cutBehind_cutBehind (h : k ≤ m) : cutBehind k (cutBehind m xs) = cutBehind k xs := by
  induction xs generalizing k m with
  | nil => simp
  | cons piece xs ih =>
    cases k with
    | zero => simp
    | succ k =>
      obtain ⟨m, rfl⟩ : ∃ m', m = m' + 1 := ⟨m - 1, by omega⟩
      cases hidle : isIdle piece with
      | true =>
        rw [cutBehind_cons_of_idle hidle, cutBehind_cons_of_idle hidle,
          cutBehind_cons_of_idle hidle, ih h]
      | false =>
        rw [cutBehind_cons_of_not_idle hidle, cutBehind_cons_of_not_idle hidle,
          cutBehind_cons_of_not_idle hidle, ih (by omega)]

/-- A path that ends with a name is as long as its names. -/
lemma cutBehind_concat_of_not_idle (h : isIdle piece = false) :
    cutBehind ((namesOf xs).length + 1) (xs ++ [piece]) = xs ++ [piece] := by
  induction xs with
  | nil => exact cutBehind_cons_of_not_idle h
  | cons first xs ih =>
    cases hfirst : isIdle first with
    | true =>
      rw [namesOf_cons_of_idle hfirst, List.cons_append, cutBehind_cons_of_idle hfirst, ih]
    | false =>
      rw [namesOf_cons_of_not_idle hfirst, List.cons_append, List.length_cons,
        cutBehind_cons_of_not_idle hfirst, ih]

lemma namesOf_concat_of_idle (h : isIdle piece = true) : namesOf (xs ++ [piece]) = namesOf xs := by
  rw [namesOf_append, namesOf_cons_of_idle h]
  exact List.append_nil _

lemma length_namesOf_concat (h : isIdle piece = false) :
    (namesOf (xs ++ [piece])).length = (namesOf xs).length + 1 := by
  rw [namesOf_append, namesOf_cons_of_not_idle h, List.length_append]
  rfl

/-- Where each piece is a name, names are counted like pieces. -/
lemma cutBehind_of_forall (h : ∀ piece ∈ xs, isIdle piece = false) :
    cutBehind k xs = xs.take k := by
  induction xs generalizing k with
  | nil => simp
  | cons piece xs ih =>
    obtain ⟨hpiece, hrest⟩ := List.forall_mem_cons.mp h
    cases k with
    | zero => simp
    | succ k => rw [cutBehind_cons_of_not_idle hpiece, ih hrest, List.take_succ_cons]

/-- To cut behind the last name is to take away the idle pieces at the end. -/
lemma rdropWhile_isIdle : xs.rdropWhile isIdle = cutBehind (namesOf xs).length xs := by
  induction xs using List.reverseRecOn with
  | nil => rfl
  | append_singleton xs piece ih =>
    cases h : isIdle piece with
    | true =>
      rw [namesOf_concat_of_idle h, cutBehind_append le_rfl, List.rdropWhile_concat_pos _ _ _ h, ih]
    | false =>
      rw [length_namesOf_concat h, cutBehind_concat_of_not_idle h,
        List.rdropWhile_concat_neg _ _ _ (by simp [h])]

/-! ## The directory around one -/

/-- The path as far as its `k`-th name; all of it, if it has no more names. -/
def upTo (p : Path) (k : Nat) : Path :=
  if p.names.length ≤ k then p else { p with pieces := cutBehind k p.pieces }

/-- The path without its last name and the idle pieces around it.  Only a dot at the beginning can
be taken away where no name is left. -/
def parent? (p : Path) : Option Path :=
  let kept := p.pieces.rdropWhile isIdle
  if kept = [] then
    if p.start = .dot then some .empty else none
  else some { p with pieces := kept.dropLast.rdropWhile isIdle }

lemma upTo_length : p.upTo p.names.length = p := if_pos le_rfl

lemma upTo_of_lt (h : k < p.names.length) :
    p.upTo k = { p with pieces := cutBehind k p.pieces } := if_neg (by omega)

lemma start_upTo : (p.upTo k).start = p.start := by
  rw [upTo]
  split <;> rfl

/-- The names of the path as far as the `k`-th name are the first `k`. -/
lemma names_upTo : (p.upTo k).names = p.names.take k := by
  rw [upTo]
  split
  · rename_i h
    exact (List.take_of_length_le h).symm
  · exact namesOf_cutBehind

lemma length_names_upTo (h : k ≤ p.names.length) : (p.upTo k).names.length = k := by
  rw [names_upTo, List.length_take_of_le h]

/-- From a directory further in one comes to the same directories around. -/
lemma upTo_upTo (hk : k ≤ m) (hm : m < p.names.length) : (p.upTo m).upTo k = p.upTo k := by
  have hlength := length_names_upTo hm.le
  by_cases h : k = m
  · subst h
    rw [upTo, hlength, if_pos le_rfl]
  · rw [upTo_of_lt (by omega), upTo_of_lt hm, upTo_of_lt (by omega), cutBehind_cutBehind hk]

/-- Where each piece is a name, a path is cut between its pieces. -/
lemma upTo_of_forall (h : ∀ piece ∈ p.pieces, isIdle piece = false) :
    p.upTo k = { p with pieces := p.pieces.take k } := by
  have hnames : p.names = p.pieces := List.filter_eq_self.mpr (by simpa using h)
  rw [upTo, hnames]
  split
  · rename_i hk
    rw [List.take_of_length_le hk]
  · rw [cutBehind_of_forall h]

lemma rdropWhile_eq_nil_iff : p.pieces.rdropWhile isIdle = [] ↔ p.names = [] := by
  rw [List.rdropWhile_eq_nil_iff, names, namesOf, List.filter_eq_nil_iff]
  simp

/-- Without the last name the path is cut behind the one before it. -/
lemma dropLast_rdropWhile :
    (xs.rdropWhile isIdle).dropLast.rdropWhile isIdle = cutBehind ((namesOf xs).length - 1) xs := by
  induction xs using List.reverseRecOn with
  | nil => rfl
  | append_singleton xs piece ih =>
    cases h : isIdle piece with
    | true =>
      rw [namesOf_concat_of_idle h, cutBehind_append (by omega), List.rdropWhile_concat_pos _ _ _ h,
        ih]
    | false =>
      rw [length_namesOf_concat h, List.rdropWhile_concat_neg _ _ _ (by simp [h]),
        List.dropLast_concat, rdropWhile_isIdle, Nat.add_sub_cancel, cutBehind_append le_rfl]

/-- Where there is no name left, there is no directory around. -/
lemma parent?_eq_none (hstart : p.start ≠ .dot) (h : p.names.length = 0) : p.parent? = none := by
  have hkept := rdropWhile_eq_nil_iff.mpr (List.length_eq_zero_iff.mp h)
  rw [parent?, if_pos hkept, if_neg hstart]

/-- One name is taken away at a time. -/
lemma parent?_eq_some (h : p.names.length = m + 1) : p.parent? = some (p.upTo m) := by
  have hkept : p.pieces.rdropWhile isIdle ≠ [] := by
    intro hnil
    rw [rdropWhile_eq_nil_iff.mp hnil] at h
    cases h
  have hlength : (namesOf p.pieces).length = m + 1 := h
  rw [parent?, if_neg hkept, dropLast_rdropWhile, hlength, Nat.add_sub_cancel,
    upTo_of_lt (by omega)]

/-! ## All directories around one -/

lemma shorter_cons_of_idle (h : isIdle piece = true) : shorter (piece :: xs) = shorter xs := by
  rw [shorter, if_pos h]

lemma shorter_cons_of_not_idle (h : isIdle piece = false) :
    shorter (piece :: xs) = xs.dropWhile isIdle :: shorter xs := by
  rw [shorter, if_neg (by simp [h])]

/-- What is left when names are taken away from behind is the path as far as each of them. -/
lemma shorter_reverse : (shorter xs.reverse).map List.reverse =
    (List.range (namesOf xs).length).reverse.map (cutBehind · xs) := by
  induction xs using List.reverseRecOn with
  | nil => rfl
  | append_singleton xs piece ih =>
    have hcut : ∀ k ∈ (List.range (namesOf xs).length).reverse,
        cutBehind k (xs ++ [piece]) = cutBehind k xs := by
      intro k hk
      rw [List.mem_reverse, List.mem_range] at hk
      exact cutBehind_append hk.le
    rw [List.reverse_concat]
    cases h : isIdle piece with
    | true => rw [shorter_cons_of_idle h, ih, namesOf_concat_of_idle h, List.map_congr_left hcut]
    | false =>
      rw [shorter_cons_of_not_idle h, List.map_cons, ih, length_namesOf_concat h, List.range_succ,
        List.reverse_concat, List.map_cons, List.map_congr_left hcut, cutBehind_append le_rfl,
        ← rdropWhile_isIdle]
      rfl

/-- The directories around one are the path as far as each of its names, the longest first. -/
lemma ancestors_eq (hstart : p.start ≠ .dot) :
    p.ancestors = (List.range (p.names.length + 1)).reverse.map p.upTo := by
  have hshorter : (shorter p.pieces.reverse).map (fun r => { p with pieces := r.reverse }) =
      ((shorter p.pieces.reverse).map List.reverse).map fun pieces => { p with pieces } := by
    rw [List.map_map]
    rfl
  rw [ancestors, if_neg hstart, List.append_nil, hshorter, shorter_reverse, List.map_map,
    List.range_succ, List.reverse_concat, List.map_cons, upTo_length]
  congr 1
  apply List.map_congr_left
  intro k hk
  rw [List.mem_reverse, List.mem_range] at hk
  exact (upTo_of_lt hk).symm

end Path

/-! ## The search -/

open DeclIR.Settings.Path

variable {present : Path → Bool} {dir around : Path} {tried tried' : List Path}
  {found found' : Option Path}

/-- A run of the search from a directory: what it looks for in turn, and what it ends with. -/
inductive Searches (present : Path → Bool) : Path → List Path → Option Path → Prop
  | here {dir : Path} (h : present (dir.child fileName) = true) :
    Searches present dir [dir.child fileName] (some (dir.child fileName))
  | up {dir around : Path} {tried : List Path} {found : Option Path}
    (h : present (dir.child fileName) = false) (hup : dir.parent? = some around)
    (hrest : Searches present around tried found) :
    Searches present dir (dir.child fileName :: tried) found
  | top {dir : Path} (h : present (dir.child fileName) = false) (hup : dir.parent? = none) :
    Searches present dir [dir.child fileName] none

/-- A search has one run at most. -/
lemma Searches.unique (h : Searches present dir tried found)
    (h' : Searches present dir tried' found') : tried = tried' ∧ found = found' := by
  -- Whether the file is there and whether there is a parent decide on the next step of both runs.
  induction h generalizing tried' found' with
  | here hpresent =>
    cases h' with
    | here => exact ⟨rfl, rfl⟩
    | up hnot => rw [hnot] at hpresent; cases hpresent
    | top hnot => rw [hnot] at hpresent; cases hpresent
  | up hnot hup _ ih =>
    cases h' with
    | here hpresent => rw [hnot] at hpresent; cases hpresent
    | up _ hup' hrest' =>
      rw [hup] at hup'
      cases hup'
      obtain ⟨htried, hfound⟩ := ih hrest'
      exact ⟨congrArg _ htried, hfound⟩
    | top _ hup' => rw [hup] at hup'; cases hup'
  | top hnot hup =>
    cases h' with
    | here hpresent => rw [hnot] at hpresent; cases hpresent
    | up _ hup' => rw [hup] at hup'; cases hup'
    | top => exact ⟨rfl, rfl⟩

/-- Where the file can be in the directory that the path leads to with its `k`-th name. -/
def fileAt (dir : Path) (k : Nat) : Path := (dir.upTo k).child fileName

/-- With all its names a path leads to the directory itself. -/
lemma fileAt_length : fileAt dir dir.names.length = dir.child fileName := by
  rw [fileAt, upTo_length]

lemma start_fileAt {k : Nat} : (fileAt dir k).start = dir.start := start_upTo

/-- The file is looked for behind the first `k` names. -/
lemma names_fileAt {k : Nat} : (fileAt dir k).names = dir.names.take k ++ [fileName] := by
  have hfile : namesOf [fileName] = [fileName] := by decide
  -- A slash at the end of the directory's path is no name.
  have hslash (xs : List String) :
      namesOf (if xs.getLast? = some "" then xs.dropLast else xs) = namesOf xs := by
    split
    · rename_i hlast
      obtain ⟨ys, hys⟩ := List.getLast?_eq_some_iff.mp hlast
      rw [hys, List.dropLast_concat, namesOf_concat_of_idle (by decide)]
    · rfl
  rw [← names_upTo, fileAt, child, names, namesOf_append, hfile, hslash, names]

/-- Where each piece is a name, the file is behind the first `k` of them. -/
lemma fileAt_of_forall {k : Nat} (h : ∀ piece ∈ dir.pieces, isIdle piece = false) :
    fileAt dir k = { dir with pieces := dir.pieces.take k ++ [fileName] } := by
  have hlast : (dir.pieces.take k).getLast? ≠ some "" := by
    intro hlast
    have hidle := h "" (List.mem_of_mem_take (List.mem_of_getLast? hlast))
    revert hidle
    decide
  rw [fileAt, upTo_of_forall h, child, if_neg hlast]

/-- The places are looked at from the longest path to the shortest. -/
lemma candidates_eq (hstart : dir.start ≠ .dot) :
    candidates dir = (List.range (dir.names.length + 1)).reverse.map (fileAt dir) := by
  rw [candidates, ancestors_eq hstart, List.map_map]
  rfl

/-- The places to look at are the one in the directory itself and those of the directory around
it. -/
lemma candidates_of_parent? {m : Nat} (hstart : dir.start ≠ .dot) (h : dir.names.length = m + 1) :
    candidates dir = dir.child fileName :: candidates (dir.upTo m) := by
  have hlength : (dir.upTo m).names.length = m := length_names_upTo (by omega)
  have hsame : ∀ k ∈ (List.range (m + 1)).reverse, fileAt dir k = fileAt (dir.upTo m) k := by
    intro k hk
    rw [List.mem_reverse, List.mem_range] at hk
    rw [fileAt, fileAt, upTo_upTo (by omega) (by omega)]
  rw [candidates_eq hstart, candidates_eq (by rwa [start_upTo]), hlength, h, List.range_succ,
    List.reverse_concat, List.map_cons, List.map_congr_left hsame, ← h, fileAt_length]

/-- The search ends, and looks at no more places than the path has names, and one. -/
lemma exists_searches (present : Path → Bool) (hstart : dir.start ≠ .dot) :
    ∃ tried, Searches present dir tried (find? present dir) ∧
      tried.length ≤ dir.names.length + 1 := by
  -- One name is left less with each step upwards.
  generalize hn : dir.names.length = n
  induction n generalizing dir with
  | zero =>
    -- Without names there is one place, and no parent.
    have hone : candidates dir = [dir.child fileName] := by
      rw [candidates_eq hstart, hn]
      show [fileAt dir 0] = _
      rw [← hn, fileAt_length]
    rw [find?, hone]
    cases h : present (dir.child fileName) with
    | true =>
      rw [List.find?_cons_of_pos h]
      exact ⟨_, .here h, by simp⟩
    | false =>
      rw [List.find?_cons_of_neg (by simp [h])]
      exact ⟨_, .top h (parent?_eq_none hstart hn), by simp⟩
  | succ m ih =>
    rw [find?, candidates_of_parent? hstart hn]
    cases h : present (dir.child fileName) with
    | true =>
      rw [List.find?_cons_of_pos h]
      exact ⟨_, .here h, by simp⟩
    | false =>
      have hlength : (dir.upTo m).names.length = m := length_names_upTo (by omega)
      obtain ⟨tried, hrest, htried⟩ := ih (by rwa [start_upTo]) hlength
      rw [List.find?_cons_of_neg (by simp [h])]
      refine ⟨_, .up h (parent?_eq_some hn) hrest, ?_⟩
      rw [List.length_cons]
      omega

/-- Of places that are looked at from the last to the first, the first that is there is found. -/
lemma find?_downwards {places : Nat → Path} {n : Nat} {file : Path} :
    ((List.range (n + 1)).reverse.map places).find? present = some file ↔
      ∃ k ≤ n, file = places k ∧ present file = true ∧
        ∀ j, k < j → j ≤ n → present (places j) = false := by
  -- By induction on the number of places; the last one is looked at first.
  induction n with
  | zero =>
    show [places 0].find? present = some file ↔ _
    rw [List.find?_singleton]
    constructor
    · intro h
      split at h
      · rename_i hpresent
        cases h
        exact ⟨0, le_rfl, rfl, hpresent, by omega⟩
      · cases h
    · intro h
      obtain ⟨k, hk, hfile, hpresent, -⟩ := h
      obtain rfl : k = 0 := by omega
      rw [← hfile, if_pos hpresent]
  | succ n ih =>
    rw [List.range_succ, List.reverse_concat, List.map_cons]
    cases hlast : present (places (n + 1)) with
    | true =>
      rw [List.find?_cons_of_pos hlast]
      constructor
      · intro h
        cases h
        exact ⟨n + 1, le_rfl, rfl, hlast, by omega⟩
      · intro h
        obtain ⟨k, hk, hfile, -, hbehind⟩ := h
        -- Nothing behind the one that is found is there.
        have hk' : k = n + 1 := by
          by_contra hne
          rw [hbehind (n + 1) (by omega) le_rfl] at hlast
          cases hlast
        rw [hfile, hk']
    | false =>
      rw [List.find?_cons_of_neg (by simp [hlast]), ih]
      constructor
      · intro h
        obtain ⟨k, hk, hfile, hpresent, hbehind⟩ := h
        refine ⟨k, by omega, hfile, hpresent, ?_⟩
        intro j hj hjn
        rcases Nat.lt_or_eq_of_le hjn with hjn | hjn
        · exact hbehind j hj (by omega)
        · rw [hjn, hlast]
      · intro h
        obtain ⟨k, hk, hfile, hpresent, hbehind⟩ := h
        -- The place that is found is not the last one, where nothing is.
        have hk' : k ≠ n + 1 := by
          intro heq
          rw [hfile, heq, hlast] at hpresent
          cases hpresent
        exact ⟨k, by omega, hfile, hpresent, fun j hj hjn => hbehind j hj (by omega)⟩

/-- The search from a directory of `n` names ends after at most `n + 1` looks, in one way, whatever
files there are.  It finds the file in the directory that the longest part of the path leads to, of
those that have it, down to the one without names; and it finds nothing just when none has it. -/
theorem find?_nearest (present : Path → Bool) (dir : Path) (hstart : dir.start ≠ .dot) :
    (fileAt dir dir.names.length = dir.child fileName ∧
      (∀ k, (fileAt dir k).start = dir.start ∧
        (fileAt dir k).names = dir.names.take k ++ [fileName]) ∧
      ((∀ piece ∈ dir.pieces, isIdle piece = false) →
        ∀ k, fileAt dir k = { dir with pieces := dir.pieces.take k ++ [fileName] })) ∧
    (∃ tried, tried.length ≤ dir.names.length + 1 ∧ ∀ tried' found,
      Searches present dir tried' found ↔ tried' = tried ∧ found = find? present dir) ∧
    (∀ file, find? present dir = some file ↔
      ∃ k ≤ dir.names.length, file = fileAt dir k ∧ present file = true ∧
        ∀ j, k < j → j ≤ dir.names.length → present (fileAt dir j) = false) ∧
    (find? present dir = none ↔ ∀ k ≤ dir.names.length, present (fileAt dir k) = false) := by
  refine ⟨⟨fileAt_length, fun _ => ⟨start_fileAt, names_fileAt⟩, fun h _ => fileAt_of_forall h⟩,
    ?_, ?_, ?_⟩
  · obtain ⟨tried, hrun, hlength⟩ := exists_searches present hstart
    refine ⟨tried, hlength, ?_⟩
    intro tried' found
    constructor
    · intro hrun'
      exact hrun'.unique hrun
    · intro h
      rw [h.1, h.2]
      exact hrun
  · -- The candidates are the places at the parts of the path, from the longest to the shortest.
    intro file
    rw [find?, candidates_eq hstart]
    exact find?_downwards
  · rw [find?, candidates_eq hstart, List.find?_eq_none]
    simp only [List.mem_map, List.mem_reverse, List.mem_range, Nat.lt_succ_iff,
      forall_exists_index, and_imp, forall_apply_eq_imp_iff₂, Bool.not_eq_true]

/-- From a directory two names below the root, the file in the directory between is found. -/
theorem find?_nearest_between :
    (⟨.root, ["a", "b"]⟩ : Path).start ≠ .dot ∧
      find? (fun p => p = ⟨.root, ["a", "objir.toml"]⟩ || p = ⟨.root, ["objir.toml"]⟩)
        ⟨.root, ["a", "b"]⟩ = some ⟨.root, ["a", "objir.toml"]⟩ := by
  have hstart : (⟨.root, ["a", "b"]⟩ : Path).start ≠ .dot := by decide
  have hnames : (⟨.root, ["a", "b"]⟩ : Path).names.length = 2 := by decide
  refine ⟨hstart, ?_⟩
  obtain ⟨⟨-, -, hplace⟩, -, hfound, -⟩ := find?_nearest
    (fun p => p = ⟨.root, ["a", "objir.toml"]⟩ || p = ⟨.root, ["objir.toml"]⟩) _ hstart
  have hplaces := hplace (List.forall_mem_cons.mpr
    ⟨by decide, List.forall_mem_cons.mpr ⟨by decide, fun _ h => nomatch h⟩⟩)
  refine (hfound _).mpr ⟨1, by omega, (hplaces 1).symm, by decide, ?_⟩
  intro j hj hjn
  obtain rfl : j = 2 := by omega
  rw [hplaces 2]
  decide

end DeclIR.Settings
