import ContractAbi.Bytes.Hex
import ContractAbi.Proofs.Except
import ContractAbi.Proofs.Utf8

/-!
# Hexadecimal text read back

Writing uses sixteen characters of one byte each, so the text of a byte string
has two bytes for each of its bytes, and reading finds the halves of each byte
again.  Reading also accepts upper case, so that a text is written again as its
lower case, and every text of digits that come in pairs is read.
-/

namespace ContractAbi.Hex

/-- The characters that hexadecimal text is written with. -/
def isWritten (character : Char) : Bool :=
  let code := character.toNat
  (48 ≤ code && code ≤ 57) || (97 ≤ code && code ≤ 102)

theorem isWritten_digit {value : Nat} (small : value < 16) : isWritten (digit value) = true := by
  have each : ∀ value < 16, isWritten (digit value) = true := by decide
  exact each value small

theorem utf8_digit (value : Nat) (small : value < 16) :
    ∃ byte, String.utf8EncodeChar (digit value) = [byte] ∧ digitValue? byte = some value := by
  have each : ∀ value < 16,
      String.utf8EncodeChar (digit value) = [UInt8.ofNat (digit value).toNat] ∧
        digitValue? (UInt8.ofNat (digit value).toNat) = some value := by decide
  exact ⟨_, each value small⟩

theorem isWritten_of_mem_encode {bytes : Bytes} {character : Char}
    (mem : character ∈ encode bytes) : isWritten character = true := by
  rcases List.mem_flatMap.1 mem with ⟨byte, _, half⟩
  have range := byte.toNat_lt
  simp only [List.mem_cons, List.not_mem_nil, or_false] at half
  rcases half with rfl | rfl
  · exact isWritten_digit (by omega)
  · exact isWritten_digit (by omega)

/-- The text of a byte is two bytes long and holds its upper and its lower half. -/
theorem utf8_encode_cons (byte : UInt8) (bytes : Bytes) :
    ∃ high low, Utf8.encode (encode (byte :: bytes)) = high :: low :: Utf8.encode (encode bytes) ∧
      digitValue? high = some (byte.toNat / 16) ∧ digitValue? low = some (byte.toNat % 16) := by
  have range := byte.toNat_lt
  rcases utf8_digit (byte.toNat / 16) (by omega) with ⟨high, highText, highValue⟩
  rcases utf8_digit (byte.toNat % 16) (by omega) with ⟨low, lowText, lowValue⟩
  refine ⟨high, low, ?_, highValue, lowValue⟩
  simp [Utf8.encode, encode, highText, lowText]

theorem length_utf8_encode (bytes : Bytes) :
    (Utf8.encode (encode bytes)).length = 2 * bytes.length := by
  induction bytes with
  | nil => rfl
  | cons byte bytes ih =>
      rcases utf8_encode_cons byte bytes with ⟨high, low, text, _, _⟩
      rw [text, List.length_cons, List.length_cons, ih, List.length_cons]
      omega

theorem decodeFrom_encode (position : Nat) (bytes : Bytes) :
    decodeFrom position (Utf8.encode (encode bytes)) = .ok bytes := by
  induction bytes generalizing position with
  | nil => rfl
  | cons byte bytes ih =>
      rcases utf8_encode_cons byte bytes with ⟨high, low, text, highValue, lowValue⟩
      have halves : 16 * (byte.toNat / 16) + byte.toNat % 16 = byte.toNat :=
        Nat.div_add_mod byte.toNat 16
      rw [text, decodeFrom]
      simp only [highValue, lowValue, ih, halves, UInt8.ofNat_toNat, Except.map]

/-- Reading the hexadecimal text of a byte string gives the byte string. -/
@[simp]
theorem decode_encode (bytes : Bytes) : decode (encode bytes) = .ok bytes := by
  have even : (Utf8.encode (encode bytes)).length % 2 = 0 := by
    rw [length_utf8_encode]
    omega
  simp only [decode, even, decodeFrom_encode]
  rfl

/-- A digit of either case stands for a number that is written as its lower case. -/
theorem digit_of_digitValue? {byte : UInt8} {value : Nat} (read : digitValue? byte = some value) :
    byte.toNat < 128 ∧ value < 16 ∧ digit value = (Char.ofNat byte.toNat).toLower := by
  have decimals : ∀ value < 10, digit value = (Char.ofNat (value + 48)).toLower := by decide
  have lowers : ∀ value < 16, 10 ≤ value → digit value = (Char.ofNat (value + 87)).toLower := by
    decide
  have uppers : ∀ value < 16, 10 ≤ value → digit value = (Char.ofNat (value + 55)).toLower := by
    decide
  simp only [digitValue?] at read
  split at read
  · rename_i range
    cases read
    have same := decimals (byte.toNat - 48) (by omega)
    rw [Nat.sub_add_cancel range.1] at same
    exact ⟨by omega, by omega, same⟩
  · split at read
    · rename_i range
      cases read
      have same := lowers (byte.toNat - 87) (by omega) (by omega)
      rw [Nat.sub_add_cancel (by omega)] at same
      exact ⟨by omega, by omega, same⟩
    · split at read
      · rename_i range
        cases read
        have same := uppers (byte.toNat - 55) (by omega) (by omega)
        rw [Nat.sub_add_cancel (by omega)] at same
        exact ⟨by omega, by omega, same⟩
      · cases read

/-- Digits that are read are those of the bytes, in either case. -/
theorem decodeFrom_eq_ok {position : Nat} {digits bytes : Bytes}
    (read : decodeFrom position digits = .ok bytes) :
    (∀ byte ∈ digits, byte.toNat < 128) ∧
      encode bytes = digits.map fun byte => (Char.ofNat byte.toNat).toLower := by
  fun_induction decodeFrom position digits generalizing bytes with
  | case1 position =>
      cases read
      exact ⟨by simp, rfl⟩
  | case2 => cases read
  | case3 => cases read
  | case4 => cases read
  | case5 position high low rest upper highRead lower lowRead ih =>
      rcases map_eq_ok_iff.1 read with ⟨others, restRead, rfl⟩
      rcases digit_of_digitValue? highRead with ⟨highAscii, upperSmall, highDigit⟩
      rcases digit_of_digitValue? lowRead with ⟨lowAscii, lowerSmall, lowDigit⟩
      rcases ih restRead with ⟨ascii, text⟩
      have value : (UInt8.ofNat (16 * upper + lower)).toNat = 16 * upper + lower :=
        UInt8.toNat_ofNat_of_lt' (by rw [UInt8.size]; omega)
      have upperHalf : (16 * upper + lower) / 16 = upper := by omega
      have lowerHalf : (16 * upper + lower) % 16 = lower := by omega
      refine ⟨?_, ?_⟩
      · simp only [List.forall_mem_cons]
        exact ⟨highAscii, lowAscii, ascii⟩
      · rw [encode, List.flatMap_cons, value, upperHalf, lowerHalf, ← encode, text, highDigit,
          lowDigit]
        rfl

/-- What is read from a hexadecimal text is written in lower case. -/
theorem encode_of_decode {text : List Char} {bytes : Bytes} (read : decode text = .ok bytes) :
    encode bytes = text.map Char.toLower := by
  simp only [decode] at read
  split at read
  · cases read
  · rcases decodeFrom_eq_ok read with ⟨ascii, written⟩
    have same := Utf8.decode_of_ascii ascii
    rw [Utf8.decode_encode, Except.ok.injEq] at same
    have lower := congrArg (List.map Char.toLower) same
    rw [List.map_map] at lower
    exact written.trans lower.symm

/-- The characters of both cases that reading accepts. -/
def isDigit (character : Char) : Bool :=
  let code := character.toNat
  (48 ≤ code && code ≤ 57) || (97 ≤ code && code ≤ 102) || (65 ≤ code && code ≤ 70)

theorem toNat_toLower (character : Char) :
    character.toLower.toNat =
      if 65 ≤ character.toNat ∧ character.toNat ≤ 90 then character.toNat + 32
      else character.toNat := by
  have upper : (character.val ≥ 'A'.val ∧ character.val ≤ 'Z'.val) ↔
      65 ≤ character.toNat ∧ character.toNat ≤ 90 := by
    simp only [ge_iff_le, UInt32.le_iff_toNat_le]
    rfl
  by_cases range : 65 ≤ character.toNat ∧ character.toNat ≤ 90
  · have lower : character.toLower.val = character.val + 32 :=
      congrArg Char.val (dif_pos (upper.2 range))
    rw [if_pos range, Char.toNat, lower, UInt32.toNat_add]
    change (character.toNat + 32) % 2 ^ 32 = character.toNat + 32
    omega
  · have same : character.toLower = character := dif_neg (mt upper.1 range)
    rw [if_neg range, same]

theorem isDigit_of_isWritten_toLower {character : Char}
    (written : isWritten character.toLower = true) : isDigit character = true := by
  simp only [isWritten, isDigit, toNat_toLower, Bool.or_eq_true, Bool.and_eq_true,
    decide_eq_true_eq] at written ⊢
  split at written <;> omega

theorem length_encode (bytes : Bytes) : (encode bytes).length = 2 * bytes.length := by
  simp [encode, Nat.mul_comm]

/-- A digit takes one byte, and the byte has a value. -/
theorem utf8EncodeChar_of_isDigit {character : Char} (digit : isDigit character = true) :
    ∃ byte, String.utf8EncodeChar character = [byte] ∧ digitValue? byte ≠ none := by
  simp only [isDigit, Bool.or_eq_true, Bool.and_eq_true, decide_eq_true_eq] at digit
  have scalar : character.toNat < 55296 := by omega
  have code : (UInt8.ofNat character.toNat).toNat = character.toNat :=
    UInt8.toNat_ofNat_of_lt' (by rw [UInt8.size]; omega)
  have encoded := Utf8.utf8EncodeChar_ofNat (.inl scalar)
  rw [Char.ofNat_toNat, if_pos (by omega)] at encoded
  refine ⟨_, encoded, ?_⟩
  rw [digitValue?, code]
  repeat' split
  all_goals first | omega | exact Option.some_ne_none _

theorem utf8_encode_of_isDigit {text : List Char}
    (digits : ∀ character ∈ text, isDigit character = true) :
    (Utf8.encode text).length = text.length ∧
      ∀ byte ∈ Utf8.encode text, digitValue? byte ≠ none := by
  induction text with
  | nil => exact ⟨rfl, List.forall_mem_nil _⟩
  | cons character text ih =>
      rw [List.forall_mem_cons] at digits
      rcases utf8EncodeChar_of_isDigit digits.1 with ⟨byte, one, value⟩
      have same : Utf8.encode (character :: text) = byte :: Utf8.encode text := by
        rw [Utf8.encode, List.flatMap_cons, one]
        rfl
      rw [same, List.length_cons, List.length_cons, (ih digits.2).1, List.forall_mem_cons]
      exact ⟨rfl, value, (ih digits.2).2⟩

theorem exists_decodeFrom {position : Nat} {digits : Bytes} (even : digits.length % 2 = 0)
    (values : ∀ byte ∈ digits, digitValue? byte ≠ none) :
    ∃ bytes, decodeFrom position digits = .ok bytes := by
  fun_induction decodeFrom position digits with
  | case1 => exact ⟨_, rfl⟩
  | case2 => cases even
  | case3 position high low rest missing => exact absurd missing (values _ List.mem_cons_self)
  | case4 position high low rest upper _ missing =>
      exact absurd missing (values _ (List.mem_cons_of_mem _ List.mem_cons_self))
  | case5 position high low rest upper _ lower _ ih =>
      rw [List.length_cons, List.length_cons] at even
      simp only [List.forall_mem_cons] at values
      rcases ih (by omega) values.2.2 with ⟨bytes, restRead⟩
      exact ⟨_, map_eq_ok_iff.2 ⟨bytes, restRead, rfl⟩⟩

/-- A text can be read exactly if it is made of digits, two for each byte. -/
theorem exists_decode_iff {text : List Char} :
    (∃ bytes, decode text = .ok bytes) ↔
      text.length % 2 = 0 ∧ ∀ character ∈ text, isDigit character = true := by
  constructor
  · rintro ⟨bytes, read⟩
    have written := encode_of_decode read
    have length := congrArg List.length written
    rw [length_encode, List.length_map] at length
    refine ⟨by omega, ?_⟩
    intro character mem
    have lowerMem : character.toLower ∈ encode bytes := by
      rw [written]
      exact List.mem_map_of_mem mem
    exact isDigit_of_isWritten_toLower (isWritten_of_mem_encode lowerMem)
  · rintro ⟨even, digits⟩
    rcases utf8_encode_of_isDigit digits with ⟨length, values⟩
    rw [← length] at even
    rw [decode, if_neg (by omega)]
    exact exists_decodeFrom even values

end ContractAbi.Hex
