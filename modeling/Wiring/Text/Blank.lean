/-! # Blank characters and trimming

Two classes of blank occur. Names and tokens are trimmed by the wide one, which also holds the
four information separators; numbers written as text are trimmed by the property White_Space
alone. Trimming works on the list of characters, so that its laws are those of `dropWhile`.
-/

namespace Wiring.Text

/-- The property White_Space. -/
def isWhiteSpace (c : Char) : Bool :=
  let n := c.toNat
  (0x09 ≤ n && n ≤ 0x0D) || n == 0x20 || n == 0x85 || n == 0xA0 || n == 0x1680 ||
    (0x2000 ≤ n && n ≤ 0x200A) || n == 0x2028 || n == 0x2029 || n == 0x202F || n == 0x205F ||
    n == 0x3000

/-- White space together with the information separators U+001C to U+001F. -/
def isBlank (c : Char) : Bool :=
  isWhiteSpace c || (0x1C ≤ c.toNat && c.toNat ≤ 0x1F)

/-- Drop what belongs to a class from both ends. -/
def trimChars {α : Type} (drop : α → Bool) (cs : List α) : List α :=
  ((cs.dropWhile drop).reverse.dropWhile drop).reverse

def trim (s : String) : String :=
  String.ofList (trimChars isBlank s.toList)

/-- The trimmed text, unless nothing is left of it. -/
def nonBlank? (s : String) : Option String :=
  if trim s = "" then none else some (trim s)

end Wiring.Text
