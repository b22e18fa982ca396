import DeclIR.Settings

/-!
# Finding the settings

The configuration file of a directory is the one in it or, if there is none, the one of the
directory around it.
-/

namespace DeclIR.Settings

/-- Where a path begins. -/
inductive Start where
  /-- At the root, by a slash. -/
  | root
  /-- In the working directory, by a dot. -/
  | dot
  /-- In the working directory, without saying so. -/
  | plain
deriving DecidableEq, Repr

/-- A path, by the pieces that slashes cut it into.  A piece is kept even if it says nothing, so a
path is the same text as before when it is written again. -/
structure Path where
  start : Start := .plain
  pieces : List String := []
deriving DecidableEq, Repr

namespace Path

/-- The path without a beginning or pieces, which is the empty text. -/
def empty : Path := {}

/-- Cuts a text at slashes. -/
def cut (cs : List Char) : List (List Char) :=
  match cs with
  | [] => [[]]
  | c :: rest =>
    if c = '/' then [] :: cut rest
    else
      match cut rest with
      | [] => [[c]]
      | p :: ps => (c :: p) :: ps

theorem cut_ne_nil (cs : List Char) : cut cs ≠ [] := by
  cases cs with
  | nil => simp [cut]
  | cons c rest =>
    unfold cut
    split
    · simp
    · split <;> simp

/-- The cut pieces with slashes between them are the text. -/
theorem intercalate_cut (cs : List Char) :
    String.intercalate "/" ((cut cs).map String.ofList) = String.ofList cs := by
  induction cs with
  | nil => simp [cut]
  | cons c rest ih =>
    have h := cut_ne_nil rest
    unfold cut
    rcases hr : cut rest with _ | ⟨p, ps⟩
    · contradiction
    · rw [hr] at ih
      split
      · rename_i hc
        subst hc
        simp only [List.map_cons, String.intercalate_cons_cons] at ih ⊢
        rw [ih]
        simp
      · have : String.ofList (c :: p) = String.ofList [c] ++ String.ofList p := by
          simp
        simp only [List.map_cons, this, String.intercalate_cons_append] at ih ⊢
        rw [ih]
        simp

/-- Reads a path. -/
def ofString (s : String) : Path :=
  match (cut s.toList).map String.ofList with
  | [""] => .empty
  | "" :: rest => ⟨.root, rest⟩
  | "." :: rest => ⟨.dot, rest⟩
  | pieces => ⟨.plain, pieces⟩

/-- The pieces with slashes between them, behind what the path begins with. -/
def text (p : Path) : String :=
  match p.start with
  | .root => "/" ++ String.intercalate "/" p.pieces
  | .dot => String.intercalate "/" ("." :: p.pieces)
  | .plain => String.intercalate "/" p.pieces

/-- A path that was read is written as it was. -/
theorem text_ofString (s : String) : (ofString s).text = s := by
  have h := intercalate_cut s.toList
  rw [String.ofList_toList] at h
  unfold ofString
  split
  · rename_i hp
    simpa [hp, empty, text] using h
  · rename_i rest hp hr
    rw [hr] at h
    cases rest with
    | nil => simp at hp
    | cons q qs => simpa [text] using h
  · rename_i hr
    rw [hr] at h
    exact h
  · exact h

/-- Whether a piece leads nowhere: nothing between two slashes, or a dot. -/
def isIdle (piece : String) : Bool := piece = "" || piece = "."

/-- The path of an entry of a directory.  A slash at the end of the directory's path serves for the
one between them. -/
def child (p : Path) (name : String) : Path :=
  { p with
    pieces := (if p.pieces.getLast? = some "" then p.pieces.dropLast else p.pieces) ++ [name] }

/-- What is left of some pieces, the last one first, when those that lead somewhere are taken away
one by one together with the idle ones around them. -/
def shorter : List String → List (List String)
  | [] => []
  | piece :: rest =>
    if isIdle piece then shorter rest else rest.dropWhile isIdle :: shorter rest

/-- The path itself and those of the directories around it, from the inside outwards.  The path of
the working directory is empty; a dot in front is taken away last. -/
def ancestors (p : Path) : List Path :=
  p :: (shorter p.pieces.reverse).map (fun r => { p with pieces := r.reverse }) ++
    if p.start = .dot then [.empty] else []

end Path

/-- The name of the configuration file. -/
def fileName : String := "objir.toml"

/-- The places where the configuration file of a directory can be, the nearest first. -/
def candidates (dir : Path) : List Path := dir.ancestors.map (·.child fileName)

/-- The nearest configuration file of a directory, where `present` says what paths exist. -/
def find? (present : Path → Bool) (dir : Path) : Option Path := (candidates dir).find? present

end DeclIR.Settings
