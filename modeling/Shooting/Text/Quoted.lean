import Shooting.Text.Number
import Shooting.Text.Shapeless

/-!
# Quoted text

A text between double quotes, on one line and in visible characters only. Quotes and backslashes
are written behind a backslash, common controls as a letter behind one, and every other character
without a shape as its code point.
-/

namespace Shooting.Text

/-- The digits of a code point in base sixteen, in lower case. -/
def hexDigits (n : Nat) : String := String.ofList (Nat.toDigits 16 n)

/-- One character between quotes. -/
def escape (c : Char) : String :=
  if c = '"' then "\\\""
  else if c = '\\' then "\\\\"
  else if c = '\n' then "\\n"
  else if c = '\r' then "\\r"
  else if c = '\t' then "\\t"
  else if c.toNat = 0 then "\\0"
  else if isShapeless c then "\\u\x7b" ++ hexDigits c.toNat ++ "\x7d"
  else c.toString

/-- A text between double quotes. -/
def quoted (s : String) : String := "\"" ++ String.join (s.toList.map escape) ++ "\""

end Shooting.Text
