import DeclIR.Settings.Search

/-!
# Reading settings from a file tree

A file tree is what the working directory holds: files with their bytes, and directories.  Every
directory on the way to an entry is there too.
-/

namespace DeclIR.Settings

/-- What stands at a path. -/
inductive Entry where
  | file (bytes : List UInt8)
  | directory
deriving DecidableEq, Repr

/-- Why nothing could be read at a path. -/
inductive ReadFault where
  | notFound
  | notDirectory
  | isDirectory
  | nameTooLong
  | zeroByte
  | notText
deriving DecidableEq, Repr

/-- The reason in words. -/
def ReadFault.text : ReadFault → String
  | notFound => "No such file or directory (os error 2)"
  | notDirectory => "Not a directory (os error 20)"
  | isDirectory => "Is a directory (os error 21)"
  | nameTooLong => "File name too long (os error 36)"
  | zeroByte => "file name contained an unexpected NUL byte"
  | notText => "stream did not contain valid UTF-8"

/-- The files and directories of the working directory, by their names on the way.  Of two entries
for one place the first counts. -/
structure FileTree where
  entries : List (List String × Entry) := []

namespace FileTree

/-- Adds an entry, in place of any before at the same path. -/
def add (t : FileTree) (names : List String) (e : Entry) : FileTree :=
  { entries := (names, e) :: t.entries }

/-- Adds an entry at the end of some pieces that lead on from a directory, and the directories on
the way.  Nothing leads out of the working directory. -/
def place (t : FileTree) (e : Entry) (dir : List String) : List String → FileTree
  | [] => t
  | piece :: rest =>
    if Path.isIdle piece then t.place e dir rest
    else if piece = ".." then t.place e dir.dropLast rest
    else if rest.isEmpty then t.add (dir ++ [piece]) e
    else (t.add (dir ++ [piece]) .directory).place e (dir ++ [piece]) rest

/-- Adds an entry at a path, and the directories on the way. -/
def insert (t : FileTree) (p : Path) (e : Entry) : FileTree := t.place e [] p.pieces

/-- What stands at the place with these names on the way. -/
def entry? (t : FileTree) (names : List String) : Option Entry :=
  match t.entries.find? (·.1 = names) with
  | some (_, e) => some e
  | none => if t.entries.any (names.isPrefixOf ·.1) then some .directory else none

/-- The directory around one, if it is in the working directory. -/
def around? (dir : List String) : Option (List String) :=
  if dir.isEmpty then none else some dir.dropLast

/-- The most bytes that one name can have. -/
def maxNameBytes : Nat := 255

/-- The most bytes that a path can have, a zero byte behind it not counted. -/
def maxPathBytes : Nat := 4095

/-- Follows pieces from a directory of the working directory, or from one around it.  Of the latter
only the directories themselves are known.  A name is looked at only in a directory that is there,
so the first piece that does not lead on decides. -/
def follow (t : FileTree) (dir : Option (List String)) : List String → Except ReadFault Entry
  | [] => .ok .directory
  | piece :: rest =>
    if Path.isIdle piece then t.follow dir rest
    else if piece = ".." then t.follow (dir.bind around?) rest
    else if maxNameBytes < piece.utf8ByteSize then .error .nameTooLong
    else
      match dir with
      | none => .error .notFound
      | some names =>
        match t.entry? (names ++ [piece]) with
        | none => .error .notFound
        | some .directory => t.follow (some (names ++ [piece])) rest
        | some (.file bytes) => if rest.isEmpty then .ok (.file bytes) else .error .notDirectory

/-- What stands at a path.  A path with a zero byte or with too many bytes is refused before any of
it is followed, and nothing stands at the empty one. -/
def look (t : FileTree) (p : Path) : Except ReadFault Entry :=
  if '\x00' ∈ p.text.toList then .error .zeroByte
  else if maxPathBytes < p.text.utf8ByteSize then .error .nameTooLong
  else
    match p.start with
    | .root => t.follow none p.pieces
    | .dot => t.follow (some []) p.pieces
    | .plain => if p.pieces.isEmpty then .error .notFound else t.follow (some []) p.pieces

/-- Whether anything stands at a path. -/
def has (t : FileTree) (p : Path) : Bool := (t.look p).isOk

/-- The text of the file at a path. -/
def read (t : FileTree) (p : Path) : Except ReadFault String := do
  match ← t.look p with
  | .directory => throw .isDirectory
  | .file bytes =>
    match String.fromUTF8? ⟨bytes.toArray⟩ with
    | some s => return s
    | none => throw .notText

end FileTree

/-- Reads the settings from the file at a path, which is quoted as it was given. -/
def load (t : FileTree) (path : String) : Except Diagnostic Settings :=
  match t.read (.ofString path) with
  | .ok content => parse content
  | .error e => .error (.error ("cannot read '" ++ path ++ "': " ++ e.text) Span.dummy)

end DeclIR.Settings
