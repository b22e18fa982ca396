import DeclIR.Text.GraphemeExtend
import DeclIR.Text.Printable

/-!
# Quoted characters and strings

A quoted text stands between two quote marks.  The active quote mark, the backslash and the control
characters with a letter of their own are written as two characters; a character that cannot be
shown alone, or not at all, is written by the hexadecimal digits of its code point.
-/

namespace DeclIR.Text.Quoted

/-- The lower-case hexadecimal digits of a code point, without leading zeros. -/
def hexDigits (n : Nat) : List Char := Nat.toDigits 16 n

/-- The letter that stands for a control character or backslash behind a backslash. -/
def shortEscape? (c : Char) : Option Char :=
  if c = '\x00' then some '0'
  else if c = '\t' then some 't'
  else if c = '\r' then some 'r'
  else if c = '\n' then some 'n'
  else if c = '\\' then some '\\'
  else none

/-- One character inside a text quoted by `quote`. -/
def encodeChar (quote c : Char) : List Char :=
  match shortEscape? c with
  | some e => ['\\', e]
  | none =>
    if c = quote then ['\\', quote]
    else if isGraphemeExtend c || !isPrintable c then
      ['\\', 'u', '\x7b'] ++ hexDigits c.toNat ++ ['\x7d']
    else [c]

/-- The characters of a text quoted by `quote`, without the quote marks. -/
def encode (quote : Char) (cs : List Char) : List Char := cs.flatMap (encodeChar quote)

/-- A character in single quotes. -/
def char (c : Char) : String := String.ofList ('\'' :: encodeChar '\'' c ++ ['\''])

/-- A string in double quotes. -/
def string (s : String) : String := String.ofList ('"' :: encode '"' s.toList ++ ['"'])

end DeclIR.Text.Quoted
