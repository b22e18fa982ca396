import DeclIR.Source.Diagnostic
import DeclIR.Text.Blank
import DeclIR.Text.Occurrence

/-!
# Settings

The settings of a run are read from the section `[ir]` of a configuration text.  Sections, keys and
comments that have no meaning here are passed over; of several assignments to one key the last
counts, and the first value that is neither `true` nor `false` is an error.
-/

namespace DeclIR

/-- The settings of a run. -/
structure Settings where
  /-- Work on all declared types at once. -/
  parallel : Bool := false
  /-- Check the program after each pass. -/
  verifyAfterEachPass : Bool := true
deriving DecidableEq, Repr

namespace Settings

open Text

/-- What a line of a configuration text says. -/
inductive Line where
  /-- Nothing: the line is blank or a comment, or assigns nothing. -/
  | idle
  /-- The lines from here on belong to the section of this name. -/
  | header (name : List Char)
  /-- The key is assigned the value, which starts `offset` bytes into the line. -/
  | assignment (key value : List Char) (offset : Nat)
deriving DecidableEq, Repr

/-- The text without double quotes at its ends. -/
def unquote (cs : List Char) : List Char := trim (· = '"') cs

/-- The value at the start of what follows the equals sign: it ends before a comment. -/
def valueOf (rest : List Char) : List Char := trim isBlank (rest.takeWhile (· ≠ '#'))

/-- Reads a line that is no blank, comment or header.  The value is looked for behind the equals
sign. -/
def Line.readAssignment (line : List Char) : Line :=
  match line.dropWhile (· ≠ '=') with
  | [] => .idle
  | _ :: rest =>
    let value := valueOf rest
    .assignment (unquote (trim isBlank (line.takeWhile (· ≠ '=')))) value
      (byteLength line - byteLength rest + (occurrence? value rest).getD 0)

/-- Reads a line. -/
def Line.read (line : List Char) : Line :=
  let trimmed := trim isBlank line
  if trimmed.isEmpty || trimmed.head? = some '#' then .idle
  else if trimmed.head? = some '[' && trimmed.getLast? = some ']' then
    .header (trim isBlank trimmed.tail.dropLast)
  else .readAssignment line

/-- Reads a value that starts `offset` bytes into the text. -/
def readBool (key value : List Char) (offset : Nat) : Except Diagnostic Bool :=
  let found := String.ofList (unquote value)
  let key := String.ofList key
  if found = "true" then .ok true
  else if found = "false" then .ok false
  else
    .error <|
      (Diagnostic.error
        ("expected `true` or `false` for '" ++ key ++ "', found '" ++ found ++ "'")
        ⟨0, Span.offset32 offset, Span.offset32 (offset + byteLength value)⟩).withHelp
        ("write `" ++ key ++ " = true` or `" ++ key ++ " = false`")

/-- Gives a key a value that starts `offset` bytes into the text.  Other keys have no meaning. -/
def assign (s : Settings) (key value : List Char) (offset : Nat) : Except Diagnostic Settings :=
  if key = "parallel".toList then do
    return { s with parallel := ← readBool key value offset }
  else if key = "verify_after_each_pass".toList then do
    return { s with verifyAfterEachPass := ← readBool key value offset }
  else .ok s

/-- Reads the lines from `offset` bytes into the text on, in the section of this name. -/
def readLines (s : Settings) (title : List Char) (offset : Nat) :
    List (List Char) → Except Diagnostic Settings
  | [] => .ok s
  | line :: rest =>
    let next := offset + byteLength line
    match Line.read line with
    | .idle => readLines s title next rest
    | .header name => readLines s name next rest
    | .assignment key value start =>
      if title = "ir".toList then do
        readLines (← s.assign key value (offset + start)) title next rest
      else readLines s title next rest

/-- Reads a configuration text. -/
def parse (content : String) : Except Diagnostic Settings :=
  readLines {} [] 0 (lines content.toList)

end Settings
end DeclIR
