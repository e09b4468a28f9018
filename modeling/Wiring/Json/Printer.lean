import Wiring.Json.Value
import Wiring.Binary64.Shortest
import Wiring.Text.Numeral

/-! # Writing JSON text

Three forms are written. The canonical one has sorted keys and no spaces, so that it is the same
for all values that differ only in the order of members. The indented one keeps that order and
puts each item on a line of its own. Both leave all characters but quotes, backslashes and control
characters as they are; the ASCII form of the indented text escapes the others as well.
-/

namespace Wiring.Json

open Text (hexChar)

/-- The escape of one code unit by its four hexadecimal digits. -/
def unitEscape (unit : Nat) : List Char :=
  ['\\', 'u', hexChar (unit / 4096 % 16), hexChar (unit / 256 % 16), hexChar (unit / 16 % 16),
    hexChar (unit % 16)]

/-- A character as it stands in a string. -/
def escapeChar (c : Char) : List Char :=
  if c = '"' then ['\\', '"']
  else if c = '\\' then ['\\', '\\']
  else if c = '\x08' then ['\\', 'b']
  else if c = '\x0c' then ['\\', 'f']
  else if c = '\n' then ['\\', 'n']
  else if c = '\r' then ['\\', 'r']
  else if c = '\t' then ['\\', 't']
  else if c.toNat < 0x20 then unitEscape c.toNat
  else [c]

/-- A character as it stands in an ASCII string: one above U+FFFF as a pair of surrogates. -/
def escapeAscii (c : Char) : List Char :=
  if c.toNat < 0x7F then escapeChar c
  else if c.toNat < 0x10000 then unitEscape c.toNat
  else
    let offset := c.toNat - 0x10000
    unitEscape (0xD800 + offset / 0x400) ++ unitEscape (0xDC00 + offset % 0x400)

/-- A string in quotes, its characters written by `escape`. -/
def quoteWith (escape : Char → List Char) (s : String) : List Char :=
  '"' :: s.toList.flatMap escape ++ ['"']

def intText : Int → List Char
  | .ofNat n => Nat.toDigits 10 n
  | .negSucc n => '-' :: Nat.toDigits 10 (n + 1)

def floatText (x : Binary64) : List Char :=
  (x.textWith "Infinity" "NaN").toList

/-- A value without items, the same in every form. -/
def scalarText (escape : Char → List Char) : Value → List Char
  | .null => ['n', 'u', 'l', 'l']
  | .bool true => ['t', 'r', 'u', 'e']
  | .bool false => ['f', 'a', 'l', 's', 'e']
  | .int n => intText n
  | .float x => floatText x
  | .str s => quoteWith escape s
  | .torn points => quoteWith escape (mend points)
  | .arr _ => ['[', ']']
  | .obj _ | .tornObj _ => ['\x7b', '\x7d']

mutual

/-- A value with no space in it. -/
def compactChars : Value → List Char
  | .arr (item :: items) => '[' :: compactChars item ++ compactItems items
  | .obj ((key, value) :: members) | .tornObj ((key, value) :: members) =>
    '\x7b' :: quoteWith escapeChar key ++ ':' :: compactChars value ++ compactMembers members
  | value => scalarText escapeChar value

/-- The items after the first, and the closing bracket. -/
def compactItems : List Value → List Char
  | [] => [']']
  | item :: items => ',' :: compactChars item ++ compactItems items

/-- The members after the first, and the closing brace. -/
def compactMembers : List (String × Value) → List Char
  | [] => ['\x7d']
  | (key, value) :: members =>
    ',' :: quoteWith escapeChar key ++ ':' :: compactChars value ++ compactMembers members

end

/-- A new line at a depth of nesting. -/
def newLine (depth : Nat) : List Char :=
  '\n' :: List.replicate (2 * depth) ' '

mutual

/-- A value at a depth of nesting, each item on a line of its own. -/
def indentedChars (escape : Char → List Char) (depth : Nat) : Value → List Char
  | .arr (item :: items) =>
    '[' :: newLine (depth + 1) ++ indentedChars escape (depth + 1) item ++
      indentedItems escape depth items
  | .obj ((key, value) :: members) | .tornObj ((key, value) :: members) =>
    '\x7b' :: newLine (depth + 1) ++ quoteWith escape key ++ [':', ' '] ++
      indentedChars escape (depth + 1) value ++ indentedMembers escape depth members
  | value => scalarText escape value

/-- The items after the first, and the closing bracket. -/
def indentedItems (escape : Char → List Char) (depth : Nat) : List Value → List Char
  | [] => newLine depth ++ [']']
  | item :: items =>
    ',' :: newLine (depth + 1) ++ indentedChars escape (depth + 1) item ++
      indentedItems escape depth items

/-- The members after the first, and the closing brace. -/
def indentedMembers (escape : Char → List Char) (depth : Nat) :
    List (String × Value) → List Char
  | [] => newLine depth ++ ['\x7d']
  | (key, value) :: members =>
    ',' :: newLine (depth + 1) ++ quoteWith escape key ++ [':', ' '] ++
      indentedChars escape (depth + 1) value ++ indentedMembers escape depth members

end

mutual

/-- The value with the members of every object in the order of their keys. -/
def sortKeys : Value → Value
  | .arr items => .arr (sortItems items)
  | .obj members => .obj ((sortMembers members).mergeSort fun a b => a.1 ≤ b.1)
  | .tornObj members => .tornObj ((sortMembers members).mergeSort fun a b => a.1 ≤ b.1)
  | value => value

def sortItems : List Value → List Value
  | [] => []
  | item :: items => sortKeys item :: sortItems items

/-- Every member's value with its keys sorted; the members stay in place. -/
def sortMembers : List (String × Value) → List (String × Value)
  | [] => []
  | (key, value) :: members => (key, sortKeys value) :: sortMembers members

end

/-- The text of a value with no space in it, members in order. -/
def compact (value : Value) : String := String.ofList (compactChars value)

def canonical (value : Value) : String := compact (sortKeys value)

def pretty (value : Value) : String := String.ofList (indentedChars escapeChar 0 value)

def prettyAscii (value : Value) : String := String.ofList (indentedChars escapeAscii 0 value)

end Wiring.Json
