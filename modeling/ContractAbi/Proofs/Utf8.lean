import ContractAbi.Bytes.Utf8
import Mathlib.Tactic.Common

/-!
# UTF-8 text read back

Each character takes one to four bytes.  The first byte says how many, and the
reader's conditions on the second byte hold because a character is neither a
surrogate nor above the last code point.  The same conditions leave one form for
each character, so what is read is written again byte for byte.
-/

namespace ContractAbi.Utf8

theorem sequenceLength_eq (first : UInt8) :
    sequenceLength first =
      if first.toNat < 128 then 1
      else if first.toNat < 194 then 0
      else if first.toNat < 224 then 2
      else if first.toNat < 240 then 3
      else if first.toNat < 245 then 4
      else 0 := by
  simp only [sequenceLength, UInt8.lt_iff_toNat_lt]
  rfl

theorem isContinuation_iff (byte : UInt8) :
    isContinuation byte = true ↔ 128 ≤ byte.toNat ∧ byte.toNat < 192 := by
  simp only [isContinuation, Bool.and_eq_true, decide_eq_true_eq, UInt8.le_iff_toNat_le,
    UInt8.lt_iff_toNat_lt]
  rfl

theorem isSecond_iff (first second : UInt8) :
    isSecond first second = true ↔
      (128 ≤ second.toNat ∧ second.toNat < 192) ∧
        (first.toNat = 224 → 160 ≤ second.toNat) ∧
        (first.toNat = 237 → second.toNat < 160) ∧
        (first.toNat = 240 → 144 ≤ second.toNat) ∧
        (first.toNat = 244 → second.toNat < 144) := by
  rw [isSecond, Bool.and_eq_true, isContinuation_iff]
  apply and_congr_right
  intro _
  simp only [← UInt8.toNat_inj]
  split
  · simp [UInt8.le_iff_toNat_le, *]
  · split
    · simp [UInt8.lt_iff_toNat_lt, *]
    · split
      · simp [UInt8.le_iff_toNat_le, *]
      · split
        · simp [UInt8.lt_iff_toNat_lt, *]
        · simp_all

/-- A byte of a multi-byte form: some bits of the code point above a marker. -/
theorem toNat_ofNat_add (code size marker : Nat) (positive : 0 < size)
    (small : size + marker ≤ 256) :
    (UInt8.ofNat (code % size + marker)).toNat = code % size + marker := by
  have digit := Nat.mod_lt code positive
  exact UInt8.toNat_ofNat_of_lt' (by rw [UInt8.size]; omega)

theorem decode_oneByte {number : Nat} (small : number ≤ 127) (rest : Bytes) :
    decode (UInt8.ofNat number :: rest) = prepend 1 (Char.ofNat number) (decode rest) := by
  have first : (UInt8.ofNat number).toNat = number :=
    UInt8.toNat_ofNat_of_lt' (by rw [UInt8.size]; omega)
  generalize UInt8.ofNat number = firstByte at first ⊢
  have length : sequenceLength firstByte = 1 := by
    rw [sequenceLength_eq, first, if_pos (by omega)]
  simp only [decode, length, assemble, List.foldl_nil, first]
  congr 2
  omega

theorem decode_twoBytes {number : Nat} (above : 127 < number) (small : number ≤ 2047)
    (rest : Bytes) :
    decode (UInt8.ofNat (number / 64 % 32 + 192) :: UInt8.ofNat (number % 64 + 128) :: rest) =
      prepend 2 (Char.ofNat number) (decode rest) := by
  have first := toNat_ofNat_add (number / 64) 32 192 (by decide) (by decide)
  have second := toNat_ofNat_add number 64 128 (by decide) (by decide)
  generalize UInt8.ofNat (number / 64 % 32 + 192) = firstByte at first ⊢
  generalize UInt8.ofNat (number % 64 + 128) = secondByte at second ⊢
  have length : sequenceLength firstByte = 2 := by
    rw [sequenceLength_eq, first, if_neg (by omega), if_neg (by omega), if_pos (by omega)]
  have accepted : isSecond firstByte secondByte = true := by
    rw [isSecond_iff, first, second]
    omega
  simp only [decode, length, accepted, if_true, assemble, List.foldl_cons, List.foldl_nil, first,
    second]
  congr 2
  omega

theorem decode_threeBytes {number : Nat} (above : 2047 < number) (small : number ≤ 65535)
    (scalar : number < 55296 ∨ 57343 < number) (rest : Bytes) :
    decode (UInt8.ofNat (number / 4096 % 16 + 224) :: UInt8.ofNat (number / 64 % 64 + 128) ::
        UInt8.ofNat (number % 64 + 128) :: rest) =
      prepend 3 (Char.ofNat number) (decode rest) := by
  have first := toNat_ofNat_add (number / 4096) 16 224 (by decide) (by decide)
  have second := toNat_ofNat_add (number / 64) 64 128 (by decide) (by decide)
  have third := toNat_ofNat_add number 64 128 (by decide) (by decide)
  generalize UInt8.ofNat (number / 4096 % 16 + 224) = firstByte at first ⊢
  generalize UInt8.ofNat (number / 64 % 64 + 128) = secondByte at second ⊢
  generalize UInt8.ofNat (number % 64 + 128) = thirdByte at third ⊢
  have length : sequenceLength firstByte = 3 := by
    rw [sequenceLength_eq, first, if_neg (by omega), if_neg (by omega), if_neg (by omega),
      if_pos (by omega)]
  have accepted : isSecond firstByte secondByte = true := by
    rw [isSecond_iff, first, second]
    omega
  have continued : isContinuation thirdByte = true := by
    rw [isContinuation_iff, third]
    omega
  simp only [decode, length, accepted, continued, Bool.not_true, Bool.false_eq_true, if_false,
    assemble, List.foldl_cons, List.foldl_nil, first, second, third]
  congr 2
  omega

theorem decode_fourBytes {number : Nat} (above : 65535 < number) (small : number < 1114112)
    (rest : Bytes) :
    decode (UInt8.ofNat (number / 262144 % 8 + 240) :: UInt8.ofNat (number / 4096 % 64 + 128) ::
        UInt8.ofNat (number / 64 % 64 + 128) :: UInt8.ofNat (number % 64 + 128) :: rest) =
      prepend 4 (Char.ofNat number) (decode rest) := by
  have first := toNat_ofNat_add (number / 262144) 8 240 (by decide) (by decide)
  have second := toNat_ofNat_add (number / 4096) 64 128 (by decide) (by decide)
  have third := toNat_ofNat_add (number / 64) 64 128 (by decide) (by decide)
  have fourth := toNat_ofNat_add number 64 128 (by decide) (by decide)
  generalize UInt8.ofNat (number / 262144 % 8 + 240) = firstByte at first ⊢
  generalize UInt8.ofNat (number / 4096 % 64 + 128) = secondByte at second ⊢
  generalize UInt8.ofNat (number / 64 % 64 + 128) = thirdByte at third ⊢
  generalize UInt8.ofNat (number % 64 + 128) = fourthByte at fourth ⊢
  have length : sequenceLength firstByte = 4 := by
    rw [sequenceLength_eq, first, if_neg (by omega), if_neg (by omega), if_neg (by omega),
      if_neg (by omega), if_pos (by omega)]
  have accepted : isSecond firstByte secondByte = true := by
    rw [isSecond_iff, first, second]
    omega
  have continued : isContinuation thirdByte = true := by
    rw [isContinuation_iff, third]
    omega
  have ended : isContinuation fourthByte = true := by
    rw [isContinuation_iff, fourth]
    omega
  simp only [decode, length, accepted, continued, ended, Bool.not_true, Bool.false_eq_true,
    if_false, assemble, List.foldl_cons, List.foldl_nil, first, second, third, fourth]
  congr 2
  omega

/-- The reader undoes the writing of one character, whatever follows it. -/
theorem decode_encode_char (character : Char) (rest : Bytes) :
    decode (String.utf8EncodeChar character ++ rest) =
      prepend (String.utf8EncodeChar character).length character (decode rest) := by
  have range : character.toNat < 55296 ∨ 57343 < character.toNat ∧ character.toNat < 1114112 :=
    character.valid
  have back : Char.ofNat character.toNat = character := Char.ofNat_toNat character
  have code : character.val.toNat = character.toNat := rfl
  simp only [String.utf8EncodeChar, code]
  generalize character.toNat = number at range back
  subst back
  split
  · exact decode_oneByte (by omega) rest
  · split
    · exact decode_twoBytes (by omega) (by omega) rest
    · split
      · exact decode_threeBytes (by omega) (by omega) (by omega) rest
      · exact decode_fourBytes (by omega) (by omega) rest

/-- Reading the UTF-8 form of a text gives the text. -/
@[simp]
theorem decode_encode (text : List Char) : decode (encode text) = .ok text := by
  induction text with
  | nil => rfl
  | cons character text ih =>
      have head := decode_encode_char character (encode text)
      rw [ih] at head
      exact head

theorem sequenceLength_range (first : UInt8) :
    (sequenceLength first = 1 → first.toNat < 128) ∧
      (sequenceLength first = 2 → 194 ≤ first.toNat ∧ first.toNat < 224) ∧
      (sequenceLength first = 3 → 224 ≤ first.toNat ∧ first.toNat < 240) ∧
      (sequenceLength first = 4 → 240 ≤ first.toNat ∧ first.toNat < 245) := by
  rw [sequenceLength_eq]
  repeat' split
  all_goals omega

theorem utf8EncodeChar_ofNat {number : Nat}
    (scalar : number < 55296 ∨ 57343 < number ∧ number < 1114112) :
    String.utf8EncodeChar (Char.ofNat number) =
      if number ≤ 127 then [UInt8.ofNat number]
      else if number ≤ 2047 then
        [UInt8.ofNat (number / 64 % 32 + 192), UInt8.ofNat (number % 64 + 128)]
      else if number ≤ 65535 then
        [UInt8.ofNat (number / 4096 % 16 + 224), UInt8.ofNat (number / 64 % 64 + 128),
          UInt8.ofNat (number % 64 + 128)]
      else
        [UInt8.ofNat (number / 262144 % 8 + 240), UInt8.ofNat (number / 4096 % 64 + 128),
          UInt8.ofNat (number / 64 % 64 + 128), UInt8.ofNat (number % 64 + 128)] := by
  have code : (Char.ofNat number).val.toNat = number := by
    have valid : number.isValidChar := scalar
    rw [Char.ofNat, dif_pos valid]
    rfl
  rw [String.utf8EncodeChar, code]

/-- A byte that carries the digit of a code point above its marker. -/
theorem ofNat_eq_of_digit {byte : UInt8} {number : Nat} (same : number = byte.toNat) :
    UInt8.ofNat number = byte := by
  rw [same, UInt8.ofNat_toNat]

theorem utf8EncodeChar_oneByte {first : UInt8} (length : sequenceLength first = 1) :
    String.utf8EncodeChar (assemble 128 first []) = [first] := by
  have range := (sequenceLength_range first).1 length
  simp only [assemble, List.foldl_nil]
  rw [utf8EncodeChar_ofNat (by omega), if_pos (by omega)]
  simp only [List.cons.injEq, and_true]
  exact ofNat_eq_of_digit (by omega)

theorem utf8EncodeChar_twoBytes {first second : UInt8} (length : sequenceLength first = 2)
    (accepted : isSecond first second = true) :
    String.utf8EncodeChar (assemble 32 first [second]) = [first, second] := by
  have range := (sequenceLength_range first).2.1 length
  rw [isSecond_iff] at accepted
  simp only [assemble, List.foldl_cons, List.foldl_nil]
  rw [utf8EncodeChar_ofNat (by omega), if_neg (by omega), if_pos (by omega)]
  simp only [List.cons.injEq, and_true]
  exact ⟨ofNat_eq_of_digit (by omega), ofNat_eq_of_digit (by omega)⟩

theorem utf8EncodeChar_threeBytes {first second third : UInt8} (length : sequenceLength first = 3)
    (accepted : isSecond first second = true) (continued : isContinuation third = true) :
    String.utf8EncodeChar (assemble 16 first [second, third]) = [first, second, third] := by
  have range := (sequenceLength_range first).2.2.1 length
  rw [isSecond_iff] at accepted
  rw [isContinuation_iff] at continued
  simp only [assemble, List.foldl_cons, List.foldl_nil]
  rw [utf8EncodeChar_ofNat (by omega), if_neg (by omega), if_neg (by omega), if_pos (by omega)]
  simp only [List.cons.injEq, and_true]
  exact ⟨ofNat_eq_of_digit (by omega), ofNat_eq_of_digit (by omega), ofNat_eq_of_digit (by omega)⟩

theorem utf8EncodeChar_fourBytes {first second third fourth : UInt8}
    (length : sequenceLength first = 4) (accepted : isSecond first second = true)
    (continued : isContinuation third = true) (ended : isContinuation fourth = true) :
    String.utf8EncodeChar (assemble 8 first [second, third, fourth]) =
      [first, second, third, fourth] := by
  have range := (sequenceLength_range first).2.2.2 length
  rw [isSecond_iff] at accepted
  rw [isContinuation_iff] at continued ended
  simp only [assemble, List.foldl_cons, List.foldl_nil]
  rw [utf8EncodeChar_ofNat (by omega), if_neg (by omega), if_neg (by omega), if_neg (by omega)]
  simp only [List.cons.injEq, and_true]
  exact ⟨ofNat_eq_of_digit (by omega), ofNat_eq_of_digit (by omega), ofNat_eq_of_digit (by omega),
    ofNat_eq_of_digit (by omega)⟩

theorem prepend_eq_ok {count : Nat} {character : Char} {read : Except Fault (List Char)}
    {text : List Char} (success : prepend count character read = .ok text) :
    ∃ rest, read = .ok rest ∧ text = character :: rest := by
  cases read with
  | error fault => cases success
  | ok rest =>
      cases success
      exact ⟨rest, rfl, rfl⟩

/-- Only the UTF-8 form of a text is read as that text. -/
theorem encode_of_decode {bytes : Bytes} {text : List Char} (read : decode bytes = .ok text) :
    encode text = bytes := by
  fun_induction decode bytes generalizing text with
  | case1 =>
      cases read
      rfl
  | case2 first rest length ih =>
      rcases prepend_eq_ok read with ⟨others, restRead, rfl⟩
      rw [encode, List.flatMap_cons, utf8EncodeChar_oneByte length, ← encode, ih restRead]
      rfl
  | case4 first second rest length accepted ih =>
      rcases prepend_eq_ok read with ⟨others, restRead, rfl⟩
      rw [encode, List.flatMap_cons, utf8EncodeChar_twoBytes length accepted, ← encode, ih restRead]
      rfl
  | case10 first second third rest length accepted continued ih =>
      rcases prepend_eq_ok read with ⟨others, restRead, rfl⟩
      simp only [Bool.not_eq_true', Bool.not_eq_false] at accepted continued
      rw [encode, List.flatMap_cons, utf8EncodeChar_threeBytes length accepted continued, ← encode,
        ih restRead]
      rfl
  | case17 first second third fourth rest length accepted continued ended ih =>
      rcases prepend_eq_ok read with ⟨others, restRead, rfl⟩
      simp only [Bool.not_eq_true', Bool.not_eq_false] at accepted continued ended
      rw [encode, List.flatMap_cons, utf8EncodeChar_fourBytes length accepted continued ended,
        ← encode, ih restRead]
      rfl
  | _ => cases read

/-- Bytes below 128 are characters of their own. -/
theorem decode_of_ascii {bytes : Bytes} (ascii : ∀ byte ∈ bytes, byte.toNat < 128) :
    decode bytes = .ok (bytes.map fun byte => Char.ofNat byte.toNat) := by
  induction bytes with
  | nil => rfl
  | cons byte bytes ih =>
      rw [List.forall_mem_cons] at ascii
      have head := decode_oneByte (by omega : byte.toNat ≤ 127) bytes
      rw [UInt8.ofNat_toNat] at head
      rw [head, ih ascii.2]
      rfl

end ContractAbi.Utf8
