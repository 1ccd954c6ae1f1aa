import HostBridge.Status

/-!
# Labels

Verdicts and statuses, in colour if the output shows colours. A colour is switched on before the
text and off after it.
-/

set_option autoImplicit false

namespace HostBridge.Label

/-- How a label is made to stand out. -/
inductive Ink where
  | green
  | brightGreen
  | brightRed
  | bold
  deriving DecidableEq, Repr

/-- The codes that switch an ink on and off. -/
def Ink.codes : Ink → String × String
  | green => ("32", "39")
  | brightGreen => ("92", "39")
  | brightRed => ("91", "39")
  | bold => ("1", "0")

/-- A text in an ink. -/
def paint (ink : Ink) (s : String) : String :=
  "\x1b[" ++ ink.codes.1 ++ "m" ++ s ++ "\x1b[" ++ ink.codes.2 ++ "m"

/-- The label of a status: bright, and green or red as it is a success or a failure. -/
def status (colour : Bool) (s : Status) : String :=
  if colour then paint (if s.isSuccess then .brightGreen else .brightRed) s.text else s.text

/-- The label of a comparison. -/
def verdict (colour ok : Bool) : String :=
  if ok then
    if colour then paint .green "ok" else "ok"
  else
    if colour then paint .bold (paint .brightRed "MISMATCH") else "MISMATCH"

end HostBridge.Label
