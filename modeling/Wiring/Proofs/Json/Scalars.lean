import Mathlib.Data.List.TakeWhile
import Wiring.Json.Parser
import Wiring.Json.Printer

/-! # Reading back strings and integers

A string in quotes is read back as the text it was made of. Every character is written so that
reading it gives its one code point, and no character is half of a surrogate pair, so that reading
joins nothing. The digits of an integer are read back if what follows does not go on with the
number.
-/

namespace Wiring.Json

open Text (hexChar)

private theorem hexDigit?_hexChar : ∀ n < 16, hexDigit? (hexChar n) = some n := by decide

/-- Four hexadecimal digits are read as the unit that they were written for. -/
theorem hexFour?_unit {unit : Nat} (small : unit < 65536) :
    hexFour? (hexChar (unit / 4096 % 16)) (hexChar (unit / 256 % 16)) (hexChar (unit / 16 % 16))
      (hexChar (unit % 16)) = some unit := by
  have digit (n : Nat) : hexDigit? (hexChar (n % 16)) = some (n % 16) :=
    hexDigit?_hexChar _ (Nat.mod_lt _ (by decide))
  simp only [hexFour?, digit, Option.bind_eq_bind, Option.bind_some, Option.pure_def,
    Option.some.injEq]
  omega

private theorem readUnits_plain (opening : List Char) (units : List Nat) {c : Char}
    (rest : List Char)
    (notQuote : c ≠ '"') (notBackslash : c ≠ '\\') (printable : ¬ c.toNat < 0x20) :
    readUnits opening units (c :: rest) = readUnits opening (c.toNat :: units) rest := by
  rw [readUnits.eq_def]
  split <;> grind

/-- A character is read back from the way it is written, if the string goes on after it. -/
theorem readUnits_escapeChar (opening : List Char) (units : List Nat) (c : Char) {next : Char}
    {rest : List Char} :
    readUnits opening units (escapeChar c ++ next :: rest) =
      readUnits opening (c.toNat :: units) (next :: rest) := by
  unfold escapeChar
  split_ifs with quote backslash b f n r t control
  · subst quote; simp [readUnits, simpleEscape?]
  · subst backslash; simp [readUnits, simpleEscape?]
  · subst b; simp [readUnits, simpleEscape?]
  · subst f; simp [readUnits, simpleEscape?]
  · subst n; simp [readUnits, simpleEscape?]
  · subst r; simp [readUnits, simpleEscape?]
  · subst t; simp [readUnits, simpleEscape?]
  · simp only [unitEscape, List.cons_append, List.nil_append, readUnits,
      hexFour?_unit (show c.toNat < 65536 by omega)]
  · exact readUnits_plain opening units _ quote backslash control

private theorem readUnits_chars (opening : List Char) (units : List Nat) (chars rest : List Char) :
    readUnits opening units (chars.flatMap escapeChar ++ '"' :: rest) =
      .ok (units.reverse ++ chars.map Char.toNat, rest) := by
  induction chars generalizing units with
  | nil => simp [readUnits]
  | cons c chars ih =>
    -- there is a next character: the closing quote at the latest
    obtain ⟨next, tail, goesOn⟩ : ∃ next tail,
        chars.flatMap escapeChar ++ '"' :: rest = next :: tail :=
      List.exists_cons_of_ne_nil (by simp)
    rw [List.flatMap_cons, List.append_assoc, goesOn, readUnits_escapeChar, ← goesOn, ih]
    simp

/-- No character is half of a surrogate pair. -/
theorem not_surrogate (c : Char) : ¬ (0xD800 ≤ c.toNat ∧ c.toNat < 0xE000) := by
  have valid : c.toNat.isValidChar := c.valid
  simp only [Nat.isValidChar] at valid
  omega

private theorem joinUnits_chars (chars : List Char) :
    joinUnits (chars.map Char.toNat) = chars.map Char.toNat := by
  induction chars with
  | nil => rfl
  | cons c chars ih =>
    cases chars with
    | nil => rfl
    | cons next chars =>
      -- only the first half of a pair is joined to what comes after it
      have whole := not_surrogate c
      simp only [List.map_cons] at ih ⊢
      rw [joinUnits, if_neg (by omega), ih]

theorem isText_chars (chars : List Char) : isText (chars.map Char.toNat) = true := by
  simp only [isText, List.all_map, List.all_eq_true]
  exact fun c _ => decide_eq_true c.valid

theorem mend_chars (s : String) : mend (s.toList.map Char.toNat) = s := by
  have each : ∀ c : Char, (if c.toNat.isValidChar then Char.ofNat c.toNat else '\ufffd') = c := by
    intro c
    rw [if_pos (show c.toNat.isValidChar from c.valid), Char.ofNat_toNat]
  simp only [mend, List.map_map, Function.comp_def, each, List.map_id', String.ofList_toList]

theorem ofPoints_chars (s : String) : Value.ofPoints (s.toList.map Char.toNat) = .str s := by
  rw [Value.ofPoints, if_pos (isText_chars _), mend_chars]

/-- A text is read back from its quoted form. -/
theorem readString_quote (opening : List Char) (s : String) (rest : List Char) :
    readString opening (s.toList.flatMap escapeChar ++ '"' :: rest) =
      .ok (s.toList.map Char.toNat, rest) := by
  simp only [readString, readUnits_chars, List.reverse_nil, List.nil_append, bind, Except.bind,
    joinUnits_chars]
  rfl

/-- What may stand after a number without going on with it. -/
def Ends (rest : List Char) : Prop :=
  ∀ c ∈ rest.head?, c.isDigit = false ∧ c ≠ '.' ∧ c ≠ 'e' ∧ c ≠ 'E'

section Digits

variable {digits rest : List Char}

private theorem spanDigits_append (each : ∀ c ∈ digits, c.isDigit = true) (ends : Ends rest) :
    spanDigits (digits ++ rest) = (digits, rest) := by
  have stop : rest.takeWhile Char.isDigit = [] ∧ rest.dropWhile Char.isDigit = rest := by
    cases rest with
    | nil => exact ⟨rfl, rfl⟩
    | cons c rest =>
      have other := (ends c rfl).1
      simp [other]
  rw [spanDigits, List.takeWhile_append_of_pos each, List.dropWhile_append_of_pos each, stop.1,
    stop.2, List.append_nil]

private theorem readFraction_of_ends (ends : Ends rest) : readFraction rest = ([], rest) := by
  cases rest with
  | nil => rfl
  | cons c rest =>
    have noPoint := (ends c rfl).2.1
    unfold readFraction
    split <;> simp_all

private theorem readExponent?_of_ends (ends : Ends rest) : readExponent? rest = none := by
  cases rest with
  | nil => rfl
  | cons c rest =>
    obtain ⟨-, -, lower, upper⟩ := ends c rfl
    simp [readExponent?, lower, upper]

end Digits

theorem exists_toDigits_cons (n : Nat) :
    ∃ first tail, Nat.toDigits 10 n = first :: tail ∧ first.isDigit = true := by
  obtain ⟨first, tail, digits⟩ :=
    List.exists_cons_of_ne_nil (Nat.toDigits_ne_nil : Nat.toDigits 10 n ≠ [])
  refine ⟨first, tail, digits, ?_⟩
  exact Nat.isDigit_of_mem_toDigits (by decide) (by decide) (digits ▸ List.mem_cons_self ..)

/-- The digits of a number start with a zero only if it is zero. -/
theorem head?_toDigits {n : Nat} (positive : 0 < n) : (Nat.toDigits 10 n).head? ≠ some '0' := by
  induction n using Nat.strongRecOn with
  | ind n ih =>
    by_cases small : n < 10
    · rw [Nat.toDigits_of_lt_base small, List.head?_cons, ne_eq, Option.some.injEq,
        Nat.digitChar_eq_zero]
      omega
    · have earlier := ih (n / 10) (by omega) (by omega)
      obtain ⟨first, tail, digits, _⟩ := exists_toDigits_cons (n / 10)
      rw [Nat.toDigits_of_base_le (by decide) (by omega), digits, List.cons_append]
      rwa [digits] at earlier

private theorem readWhole?_toDigits (n : Nat) {rest : List Char} (ends : Ends rest) :
    readWhole? (Nat.toDigits 10 n ++ rest) = some (Nat.toDigits 10 n, rest) := by
  rcases Nat.eq_zero_or_pos n with rfl | positive
  · rfl
  · have each : ∀ c ∈ Nat.toDigits 10 n, c.isDigit = true := fun c =>
      Nat.isDigit_of_mem_toDigits (by decide) (by decide)
    have whole := spanDigits_append each ends
    have leading := head?_toDigits positive
    obtain ⟨first, tail, digits, isDigit⟩ := exists_toDigits_cons n
    rw [digits] at leading whole ⊢
    unfold readWhole?
    split <;> simp_all

private theorem readUnsigned?_toDigits (negative : Bool) (n : Nat) {rest : List Char}
    (ends : Ends rest) :
    readUnsigned? negative (Nat.toDigits 10 n ++ rest) =
      some (.int (if negative then -n else n), rest) := by
  simp only [readUnsigned?, readWhole?_toDigits n ends, bind, Option.bind_some,
    readFraction_of_ends ends, readExponent?_of_ends ends, Nat.ofDigitChars_ten_toDigits]
  rfl

private theorem readScalar_of_number {cs rest : List Char} {n : Int} (noWord : readWord? cs = none)
    (number : readNumber? cs = some (.int n, rest)) :
    readScalar none cs = .ok (.int n, rest) := by
  simp only [readScalar, noWord, readLimited?, number]

/-- An integer is read back from its digits. -/
theorem readScalar_intText (n : Int) {rest : List Char} (ends : Ends rest) :
    readScalar none (intText n ++ rest) = .ok (.int n, rest) := by
  cases n with
  | ofNat m =>
    have number := readUnsigned?_toDigits false m ends
    obtain ⟨first, tail, digits, isDigit⟩ := exists_toDigits_cons m
    simp only [intText, digits, List.cons_append] at number ⊢
    apply readScalar_of_number
    · unfold readWord?
      split <;> simp_all
    · unfold readNumber?
      split
      · simp_all
      · exact number
  | negSucc m =>
    have number := readUnsigned?_toDigits true (m + 1) ends
    obtain ⟨first, tail, digits, isDigit⟩ := exists_toDigits_cons (m + 1)
    simp only [intText, digits, List.cons_append] at number ⊢
    apply readScalar_of_number
    · unfold readWord?
      split <;> simp_all
    · exact number

theorem exists_intText_cons (n : Int) :
    ∃ first tail, intText n = first :: tail ∧ (first = '-' ∨ first.isDigit = true) := by
  cases n with
  | ofNat m =>
    obtain ⟨first, tail, digits, isDigit⟩ := exists_toDigits_cons m
    exact ⟨first, tail, digits, .inr isDigit⟩
  | negSucc m => exact ⟨'-', _, rfl, .inl rfl⟩

end Wiring.Json
