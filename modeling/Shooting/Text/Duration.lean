import Shooting.Text.Number

/-!
# Lengths of time

A length of time in whole milliseconds is written in the largest unit that fits: seconds with up to
three decimals, else milliseconds, and nothing at all as nanoseconds.
-/

namespace Shooting.Text

/-- A length of time in milliseconds. -/
def duration (ms : Nat) : String :=
  if ms = 0 then "0ns"
  else if ms < 1000 then toString ms ++ "ms"
  else positional (Decimal.trim ⟨ms, -3⟩) ++ "s"

end Shooting.Text
