import Wiring.Text.Utf8

/-! # Bytes that are text

The sequences that strict decoding takes are the encodings of the characters: no character has a
longer one, and a surrogate or a number beyond the last character has none. So decoding accepts
exactly the bytes of a text, and gives its characters.
-/

namespace Wiring.Text.Utf8

section Sequences

/-- The sequences of bytes that stand for a character, each with its number. The second byte of
three or four is bounded, after some first bytes, more narrowly than those that follow it. -/
inductive Sequence : List UInt8 → Nat → Prop
  | one {a : UInt8} (first : a.toNat < 0x80) : Sequence [a] a.toNat
  | two {a b : UInt8} (first : 0xC2 ≤ a.toNat ∧ a.toNat ≤ 0xDF)
      (second : 0x80 ≤ b.toNat ∧ b.toNat ≤ 0xBF) :
      Sequence [a, b] ((a.toNat - 0xC0) * 64 + (b.toNat - 0x80))
  | three {a b c : UInt8} (first : 0xE0 ≤ a.toNat ∧ a.toNat ≤ 0xEF)
      (second : (if a.toNat = 0xE0 then 0xA0 else 0x80) ≤ b.toNat ∧
        b.toNat ≤ if a.toNat = 0xED then 0x9F else 0xBF)
      (third : 0x80 ≤ c.toNat ∧ c.toNat ≤ 0xBF) :
      Sequence [a, b, c]
        (((a.toNat - 0xE0) * 64 + (b.toNat - 0x80)) * 64 + (c.toNat - 0x80))
  | four {a b c d : UInt8} (first : 0xF0 ≤ a.toNat ∧ a.toNat ≤ 0xF4)
      (second : (if a.toNat = 0xF0 then 0x90 else 0x80) ≤ b.toNat ∧
        b.toNat ≤ if a.toNat = 0xF4 then 0x8F else 0xBF)
      (third : 0x80 ≤ c.toNat ∧ c.toNat ≤ 0xBF) (fourth : 0x80 ≤ d.toNat ∧ d.toNat ≤ 0xBF) :
      Sequence [a, b, c, d]
        ((((a.toNat - 0xF0) * 64 + (b.toNat - 0x80)) * 64 + (c.toNat - 0x80)) * 64 +
          (d.toNat - 0x80))

theorem Sequence.isValidChar {bytes : List UInt8} {number : Nat}
    (sequence : Sequence bytes number) : number.isValidChar := by
  unfold Nat.isValidChar
  cases sequence with
  | one first => omega
  | two first second => omega
  | three first second third => split at second <;> split at second <;> omega
  | four first second third fourth => split at second <;> split at second <;> omega

private theorem Sequence.length_pos {bytes : List UInt8} {number : Nat}
    (sequence : Sequence bytes number) : 0 < bytes.length := by
  cases sequence <;> exact Nat.succ_pos _

private theorem toNat_ofNat_of_valid {number : Nat} (valid : number.isValidChar) :
    (Char.ofNat number).val.toNat = number := by
  rw [Char.ofNat, dif_pos valid]
  rfl

theorem ofNat_eq_byte {number : Nat} {byte : UInt8} (same : number = byte.toNat) :
    UInt8.ofNat number = byte := by
  rw [same, UInt8.ofNat_toNat]

/-- A sequence is the encoding of the character it stands for. -/
theorem Sequence.encode {bytes : List UInt8} {number : Nat} (sequence : Sequence bytes number) :
    String.utf8EncodeChar (Char.ofNat number) = bytes := by
  unfold String.utf8EncodeChar
  simp only [toNat_ofNat_of_valid sequence.isValidChar]
  cases sequence with
  | one first => rw [if_pos (by omega), UInt8.ofNat_toNat]
  | @two a b first second =>
    generalize counted : (a.toNat - 0xC0) * 64 + (b.toNat - 0x80) = number
    have firstByte : UInt8.ofNat (number / 64 % 32 + 192) = a := ofNat_eq_byte (by omega)
    have secondByte : UInt8.ofNat (number % 64 + 128) = b := ofNat_eq_byte (by omega)
    rw [if_neg (by omega), if_pos (by omega), firstByte, secondByte]
  | @three a b c first second third =>
    generalize counted :
      ((a.toNat - 0xE0) * 64 + (b.toNat - 0x80)) * 64 + (c.toNat - 0x80) = number
    have least : 0x800 ≤ number := by split at second <;> omega
    have tail : 0x80 ≤ b.toNat ∧ b.toNat ≤ 0xBF := by
      split at second <;> split at second <;> omega
    have firstByte : UInt8.ofNat (number / 4096 % 16 + 224) = a := ofNat_eq_byte (by omega)
    have secondByte : UInt8.ofNat (number / 64 % 64 + 128) = b := ofNat_eq_byte (by omega)
    have thirdByte : UInt8.ofNat (number % 64 + 128) = c := ofNat_eq_byte (by omega)
    rw [if_neg (by omega), if_neg (by omega), if_pos (by omega), firstByte, secondByte, thirdByte]
  | @four a b c d first second third fourth =>
    generalize counted : (((a.toNat - 0xF0) * 64 + (b.toNat - 0x80)) * 64 +
      (c.toNat - 0x80)) * 64 + (d.toNat - 0x80) = number
    have least : 0x10000 ≤ number := by split at second <;> omega
    have tail : 0x80 ≤ b.toNat ∧ b.toNat ≤ 0xBF := by
      split at second <;> split at second <;> omega
    have firstByte : UInt8.ofNat (number / 262144 % 8 + 240) = a := ofNat_eq_byte (by omega)
    have secondByte : UInt8.ofNat (number / 4096 % 64 + 128) = b := ofNat_eq_byte (by omega)
    have thirdByte : UInt8.ofNat (number / 64 % 64 + 128) = c := ofNat_eq_byte (by omega)
    have fourthByte : UInt8.ofNat (number % 64 + 128) = d := ofNat_eq_byte (by omega)
    rw [if_neg (by omega), if_neg (by omega), if_neg (by omega), firstByte, secondByte, thirdByte,
      fourthByte]

theorem Sequence.renumber {bytes : List UInt8} {number other : Nat}
    (sequence : Sequence bytes number) (same : number = other) : Sequence bytes other :=
  same ▸ sequence

/-- The encoding of a character is a sequence, which stands for it. -/
theorem sequence_encode (c : Char) : Sequence (String.utf8EncodeChar c) c.toNat := by
  have valid : c.toNat.isValidChar := c.valid
  unfold Nat.isValidChar at valid
  unfold String.utf8EncodeChar
  simp only [Char.toNat_val]
  generalize c.toNat = number at valid
  split
  · refine (Sequence.one ?_).renumber ?_ <;> simp only [UInt8.toNat_ofNat'] <;> omega
  · split
    · refine (Sequence.two ?_ ?_).renumber ?_ <;> simp only [UInt8.toNat_ofNat'] <;> omega
    · split
      · refine (Sequence.three ?_ ?_ ?_).renumber ?_ <;> simp only [UInt8.toNat_ofNat']
        · omega
        · split <;> split <;> omega
        · omega
        · omega
      · refine (Sequence.four ?_ ?_ ?_ ?_).renumber ?_ <;> simp only [UInt8.toNat_ofNat']
        · omega
        · split <;> split <;> omega
        · omega
        · omega
        · omega

end Sequences

section Decoding

variable {byte : Nat}

private theorem lead?_two (first : 0xC2 ≤ byte ∧ byte ≤ 0xDF) :
    lead? byte = some ⟨byte - 0xC0, 0x80, 0xBF, 0⟩ :=
  if_pos first

private theorem lead?_three (first : 0xE0 ≤ byte ∧ byte ≤ 0xEF) :
    lead? byte = some ⟨byte - 0xE0, if byte = 0xE0 then 0xA0 else 0x80,
      if byte = 0xED then 0x9F else 0xBF, 1⟩ := by
  unfold lead?
  grind

private theorem lead?_four (first : 0xF0 ≤ byte ∧ byte ≤ 0xF4) :
    lead? byte = some ⟨byte - 0xF0, if byte = 0xF0 then 0x90 else 0x80,
      if byte = 0xF4 then 0x8F else 0xBF, 2⟩ := by
  unfold lead?
  grind

private theorem lead?_none (notTwo : ¬ (0xC2 ≤ byte ∧ byte ≤ 0xDF))
    (notThree : ¬ (0xE0 ≤ byte ∧ byte ≤ 0xEF)) (notFour : ¬ (0xF0 ≤ byte ∧ byte ≤ 0xF4)) :
    lead? byte = none := by
  unfold lead?
  grind

variable {position number : Nat} {chars result : List Char} {bytes rest : List UInt8}
  {state : Progress}

/-- A byte in range takes a sequence on, or completes it. -/
theorem decodeFrom_tail {next : UInt8}
    (inside : state.least ≤ next.toNat ∧ next.toNat ≤ state.most) :
    decodeFrom position chars (some state) (next :: rest) =
      let bits := state.bits * 64 + (next.toNat - 0x80)
      if state.more = 0 then decodeFrom (position + 1) (Char.ofNat bits :: chars) none rest
      else decodeFrom (position + 1) chars
        (some ⟨state.first, state.taken + 1, bits, 0x80, 0xBF, state.more - 1⟩) rest := by
  rw [decodeFrom]
  exact if_pos inside

theorem tail_of_decodeFrom (ok : decodeFrom position chars (some state) bytes = .ok result) :
    ∃ next rest, bytes = next :: rest ∧ state.least ≤ next.toNat ∧ next.toNat ≤ state.most := by
  cases bytes with
  | nil => nomatch ok
  | cons next rest =>
    by_cases inside : state.least ≤ next.toNat ∧ next.toNat ≤ state.most
    · exact ⟨next, rest, rfl, inside⟩
    · rw [decodeFrom] at ok
      rw [if_neg inside] at ok
      nomatch ok

theorem decodeFrom_lead {first : UInt8} {lead : Lead} (high : ¬ first.toNat < 0x80)
    (leads : lead? first.toNat = some lead) :
    decodeFrom position chars none (first :: rest) =
      decodeFrom (position + 1) chars
        (some ⟨first.toNat, 1, lead.bits, lead.least, lead.most, lead.more⟩) rest := by
  rw [decodeFrom]
  simp only [if_neg high, leads]

/-- A sequence is decoded into the character it stands for. -/
theorem Sequence.decodeFrom (sequence : Sequence bytes number) :
    Utf8.decodeFrom position chars none (bytes ++ rest) =
      Utf8.decodeFrom (position + bytes.length) (Char.ofNat number :: chars) none rest := by
  cases sequence with
  | one first =>
    rw [List.singleton_append, Utf8.decodeFrom]
    exact if_pos first
  | two first second =>
    rw [List.cons_append, List.singleton_append, decodeFrom_lead (by omega) (lead?_two first),
      decodeFrom_tail second]
    rfl
  | three first second third =>
    rw [List.cons_append, List.cons_append, List.singleton_append,
      decodeFrom_lead (by omega) (lead?_three first), decodeFrom_tail second]
    exact decodeFrom_tail third
  | four first second third fourth =>
    rw [List.cons_append, List.cons_append, List.cons_append, List.singleton_append,
      decodeFrom_lead (by omega) (lead?_four first), decodeFrom_tail second]
    exact (decodeFrom_tail third).trans (decodeFrom_tail fourth)

/-- What is decoded starts with a sequence, if there is anything. -/
theorem sequence_of_decodeFrom (ok : Utf8.decodeFrom position chars none bytes = .ok result)
    (nonempty : bytes ≠ []) :
    ∃ front number rest, bytes = front ++ rest ∧ Sequence front number := by
  obtain ⟨a, rest, rfl⟩ := List.exists_cons_of_ne_nil nonempty
  by_cases low : a.toNat < 0x80
  · exact ⟨[a], _, rest, rfl, .one low⟩
  by_cases two : 0xC2 ≤ a.toNat ∧ a.toNat ≤ 0xDF
  · rw [decodeFrom_lead low (lead?_two two)] at ok
    obtain ⟨b, rest, rfl, second⟩ := tail_of_decodeFrom ok
    exact ⟨[a, b], _, rest, rfl, .two two second⟩
  by_cases three : 0xE0 ≤ a.toNat ∧ a.toNat ≤ 0xEF
  · rw [decodeFrom_lead low (lead?_three three)] at ok
    obtain ⟨b, rest, rfl, second⟩ := tail_of_decodeFrom ok
    rw [decodeFrom_tail second] at ok
    obtain ⟨c, rest, rfl, third⟩ := tail_of_decodeFrom ok
    exact ⟨[a, b, c], _, rest, rfl, .three three second third⟩
  by_cases four : 0xF0 ≤ a.toNat ∧ a.toNat ≤ 0xF4
  · rw [decodeFrom_lead low (lead?_four four)] at ok
    obtain ⟨b, rest, rfl, second⟩ := tail_of_decodeFrom ok
    rw [decodeFrom_tail second] at ok
    obtain ⟨c, rest, rfl, third⟩ := tail_of_decodeFrom ok
    have further := (decodeFrom_tail third).symm.trans ok
    obtain ⟨d, rest, rfl, fourth⟩ := tail_of_decodeFrom further
    exact ⟨[a, b, c, d], _, rest, rfl, .four four second third fourth⟩
  rw [Utf8.decodeFrom] at ok
  simp only [if_neg low, lead?_none two three four] at ok
  nomatch ok

/-- From between two characters, decoding succeeds exactly on encodings. -/
theorem decodeFrom_eq_ok_iff (position : Nat) (chars result : List Char) (bytes : List UInt8) :
    Utf8.decodeFrom position chars none bytes = .ok result ↔
      ∃ text, result = chars.reverse ++ text ∧ bytes = text.flatMap String.utf8EncodeChar := by
  constructor
  · -- every sequence has a byte, so what is left gets shorter
    induction length : bytes.length using Nat.strongRecOn generalizing position chars bytes
      with
    | _ size ih =>
      intro ok
      by_cases empty : bytes = []
      · subst empty
        cases ok
        exact ⟨[], (List.append_nil _).symm, rfl⟩
      · obtain ⟨front, number, rest, rfl, sequence⟩ := sequence_of_decodeFrom ok empty
        rw [sequence.decodeFrom] at ok
        have shorter : rest.length < size := by
          rw [← length, List.length_append]
          have := sequence.length_pos
          omega
        obtain ⟨text, rfl, rfl⟩ := ih _ shorter _ _ _ rfl ok
        refine ⟨Char.ofNat number :: text, by simp, ?_⟩
        rw [List.flatMap_cons, sequence.encode]
  · rintro ⟨text, rfl, rfl⟩
    induction text generalizing position chars with
    | nil => rw [List.flatMap_nil, List.append_nil, Utf8.decodeFrom]
    | cons c text ih =>
      rw [List.flatMap_cons, (sequence_encode c).decodeFrom, Char.ofNat_toNat, ih,
        List.reverse_cons, List.append_assoc, List.singleton_append]

end Decoding

private theorem toList_loop (bytes : ByteArray) (i : Nat) (read : List UInt8) :
    ByteArray.toList.loop bytes i read = read.reverse ++ bytes.data.toList.drop i := by
  fun_induction ByteArray.toList.loop bytes i read with
  | case1 i read inside ih =>
    have short : i < bytes.data.toList.length := by simpa using inside
    rw [ih, List.drop_eq_getElem_cons short, List.reverse_cons, List.append_assoc,
      List.singleton_append]
    simp [ByteArray.get!, inside]
  | case2 i read outside =>
    rw [List.drop_eq_nil_of_le (by simpa using outside), List.append_nil]

theorem toList_toUTF8 (text : String) :
    text.toUTF8.toList = text.toList.flatMap String.utf8EncodeChar := by
  rw [ByteArray.toList, toList_loop, String.toUTF8_eq_toByteArray, List.reverse_nil,
    List.nil_append, List.drop_zero, ← String.ofList_toList (s := text),
    String.toByteArray_ofList, String.toList_ofList, List.utf8Encode, List.toList_data_toByteArray]

/-- Bytes are decoded exactly if they are those of a text, into its characters. -/
theorem decode_eq_ok_iff {bytes : List UInt8} {chars : List Char} :
    decode bytes = .ok chars ↔ (String.ofList chars).toUTF8.toList = bytes := by
  rw [decode, decodeFrom_eq_ok_iff, toList_toUTF8, String.toList_ofList]
  constructor
  · rintro ⟨text, rfl, rfl⟩
    rfl
  · rintro rfl
    exact ⟨chars, rfl, rfl⟩

end Wiring.Text.Utf8
