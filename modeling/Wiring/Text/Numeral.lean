/-! # Numerals

The digits of numbers written as text. A single underscore may stand between two decimal digits.
-/

namespace Wiring.Text

/-- The digits of a group, without the underscores between them. A group starts and ends with a
digit, and no two underscores meet. -/
def ungroup? : List Char → Option (List Char)
  | [] => none
  | [c] => if c.isDigit then some [c] else none
  | c :: '_' :: rest => if c.isDigit then (ungroup? rest).map (c :: ·) else none
  | c :: rest => if c.isDigit then (ungroup? rest).map (c :: ·) else none

/-- The lower-case hexadecimal digit of a value below sixteen. -/
def hexChar (n : Nat) : Char :=
  if n < 10 then Char.ofNat ('0'.toNat + n) else Char.ofNat ('a'.toNat + (n - 10))

/-- The lowest hexadecimal digits of a number, as many as asked for. -/
def hexDigits (n : Nat) : Nat → List Char
  | 0 => []
  | width + 1 => hexDigits (n / 16) width ++ [hexChar (n % 16)]

end Wiring.Text
