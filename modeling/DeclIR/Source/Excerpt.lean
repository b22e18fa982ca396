import DeclIR.Source.Diagnostic
import DeclIR.Text.Blank
import DeclIR.Text.Lines
import DeclIR.Text.Padding

/-!
# Diagnostics shown in the source

A diagnostic is shown with the source that its span covers.  Within one line, a bar below the line
marks the span, and an arm from the bar's middle leads to the message.  A span over several lines is
shown by its first and its last line, with a bracket beside them that leads to the message.  Offsets
count characters.

The layout is that of a renderer outside of this library, as far as diagnostics of this library show
it.  It serves for display only, and no statement of the theory is about it.
-/

namespace DeclIR

/-- A line of a source: its number from one, the offset of its first character, and its characters
with the line feed. -/
structure SourceLine where
  number : Nat
  offset : Nat
  chars : List Char

namespace SourceLine

open Text

/-- The offset behind the line. -/
def stop (l : SourceLine) : Nat := l.offset + l.chars.length

/-- The visible text: white space at the end is left out, and any other is a plain space. -/
def text (l : SourceLine) : String :=
  String.ofList ((trimEnd isBlank l.chars).map fun c => if isBlank c then ' ' else c)

/-- The last of some lines that begins at or before an offset, where the first of them has number
`number` and begins at `begin`. -/
def find? (at_ : Nat) : (number begin : Nat) → List (List Char) → Option SourceLine
  | _, _, [] => none
  | number, begin, l :: rest =>
    if begin ≤ at_ then
      (find? at_ (number + 1) (begin + l.length) rest).or (some ⟨number, begin, l⟩)
    else none

/-- The line of a source that an offset belongs to.  The offset behind the source belongs to its
last line, and those beyond to none. -/
def at? (source : List Char) (offset : Nat) : Option SourceLine :=
  if offset ≤ source.length then find? offset 1 0 (lines source) else none

end SourceLine

namespace Diagnostic

open Text

/-- What marks the span in a line below it: the margin and the span's column decide it. -/
def mark (d : Diagnostic) (margin : String) (column : Nat) : List String :=
  let width := d.span.stop - d.span.start
  let half := width / 2
  let bar :=
    if width = 0 then "│ "
    else repeated half '─' ++ "┬" ++ repeated (width - half - 1) '─' ++ "  "
  [margin ++ repeated column ' ' ++ bar,
   margin ++ repeated (column + half) ' ' ++ "╰" ++ repeated (width - half + 1) '─' ++ " " ++
     d.message]

/-- The help text and the last note, each behind an empty line. -/
def footer (d : Diagnostic) (margin : String) : List String :=
  let part (name : String) (text : Option String) : List String :=
    match text with
    | some t => [margin, margin ++ name ++ ": " ++ t]
    | none => []
  part "Help" d.help ++ part "Note" d.notes.getLast?

/-- The line with its number, which is filled up to a width, and what stands before the text. -/
def numbered (width : Nat) (l : SourceLine) (bracket : String) : String :=
  let number := toString l.number
  " " ++ repeated (width - number.length) ' ' ++ number ++ " │ " ++ bracket ++ l.text

/-- The lines below the heading, for a span within one line.  A span that goes on behind the line is
not marked. -/
def within (d : Diagnostic) (width : Nat) (l : SourceLine) : List String :=
  let margin := repeated (width + 2) ' ' ++ "│ "
  let shown :=
    if d.span.stop ≤ l.stop then
      numbered width l "" :: d.mark margin (d.span.start - l.offset)
    else [margin]
  shown ++ d.footer margin

/-- The lines below the heading, for a span from one line to another.  The lines between them are
left out, and so is the last one if the span goes on behind it.  The bracket's column goes on in the
footer, and so does the bracket itself if it begins at the second line of the source. -/
def across (d : Diagnostic) (width firstLength : Nat) (first last : SourceLine) : List String :=
  let indent := repeated (width + 2) ' '
  let margin := indent ++ "│ "
  let ends := d.span.stop ≤ last.stop
  let gap := first.number + 1 < last.number || !ends
  let arm := last.chars.length + 2
  [numbered width first "╭─▶ "] ++
  (if gap then [indent ++ "┆ ┆   "] else []) ++
  (if ends then
    [numbered width last "├─▶ ",
     margin ++ "│   " ++ repeated arm ' ',
     margin ++ "╰───" ++ repeated arm '─' ++ " " ++ d.message]
   else []) ++
  d.footer (margin ++ if d.span.start = firstLength then "│   " else "    ")

/-- The excerpt from the line that the span begins in to the one that it ends in. -/
def excerpt (d : Diagnostic) (file : String) (source : List Char) (first last : SourceLine) :
    List String :=
  let width := (toString last.number).length
  let indent := repeated (width + 2) ' '
  let column := d.span.start - first.offset
  [indent ++ "╭─[" ++ file ++ ":" ++ toString first.number ++ ":" ++ toString (column + 1) ++ "]",
   indent ++ "│"] ++
  (if first.number = last.number then d.within width first
   else d.across width ((lines source).headD []).length first last) ++
  [repeated (width + 2) '─' ++ "╯"]

/-- The offset of the last character of the span, or where it begins if it is empty. -/
def lastOffset (d : Diagnostic) : Nat := max d.span.start (d.span.stop - 1)

/-- The diagnostic shown in the source.  A span beyond the source is not shown, and one that ends
before it begins cannot be. -/
def render? (d : Diagnostic) (file source : String) : Option String :=
  if d.span.stop < d.span.start then none
  else
    let cs := source.toList
    let body :=
      match SourceLine.at? cs d.span.start, SourceLine.at? cs d.lastOffset with
      | some first, some last => d.excerpt file cs first last
      | _, _ => []
    some <| String.join <|
      ((d.severity.heading ++ ": " ++ d.message) :: body).map (· ++ "\n")

end Diagnostic
end DeclIR
