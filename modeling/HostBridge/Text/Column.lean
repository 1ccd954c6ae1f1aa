/-!
# Columns

Texts filled up with blanks to a width, counted in characters. A text that is longer already stays
as it is.
-/

set_option autoImplicit false

namespace HostBridge.Text

/-- The blanks that a text lacks to a width. -/
def blanks (width : Nat) (s : String) : String :=
  String.ofList (List.replicate (width - s.length) ' ')

/-- A text at the left of its column. -/
def alignLeft (width : Nat) (s : String) : String := s ++ blanks width s

/-- A text at the right of its column. -/
def alignRight (width : Nat) (s : String) : String := blanks width s ++ s

end HostBridge.Text
