/-!
Why a text does not match a date pattern.
-/

namespace Newsreel.Calendar

inductive DateFault where
  | outOfRange
  /-- The fields read contradict each other, or no such time exists. -/
  | impossible
  | notEnough
  | invalid
  | tooShort
  | tooLong
  | badPattern
  deriving DecidableEq, Repr

def DateFault.message : DateFault → String
  | .outOfRange => "input is out of range"
  | .impossible => "no possible date and time matching input"
  | .notEnough => "input is not enough for unique date and time"
  | .invalid => "input contains invalid characters"
  | .tooShort => "premature end of input"
  | .tooLong => "trailing input"
  | .badPattern => "bad or unsupported format string"

end Newsreel.Calendar
