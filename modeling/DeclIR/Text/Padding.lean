/-!
# Runs of one character

Texts that repeat a character, and texts filled up to a width with spaces.
-/

namespace DeclIR.Text

/-- A text made of one character. -/
def repeated (n : Nat) (c : Char) : String := String.ofList (List.replicate n c)

/-- A text filled up with spaces at its end; one that is wide enough stays as it is. -/
def padEnd (width : Nat) (s : String) : String := s ++ repeated (width - s.length) ' '

@[simp] theorem length_repeated (n : Nat) (c : Char) : (repeated n c).length = n := by
  simp [repeated]

theorem length_padEnd (width : Nat) (s : String) :
    (padEnd width s).length = max width s.length := by
  simp only [padEnd, String.length_append, length_repeated]
  omega

end DeclIR.Text
