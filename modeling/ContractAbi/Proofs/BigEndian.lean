import ContractAbi.Bytes.BigEndian
import Mathlib.Data.List.Induction
import Mathlib.Tactic.Ring

/-!
# Big-endian numbers read back

A fixed width gives a number back modulo the numbers that fit, and the minimal
forms are wide enough to give back the number itself, and no wider than any other
form of it.  Two's complement is the balanced remainder of the magnitude, so the
signed laws need no look at the first byte.
-/

namespace ContractAbi.BigEndian

theorem bound_eq (width : Nat) : bound width = 256 ^ width := rfl

theorem bound_eq_two_pow (width : Nat) : bound width = 2 ^ (8 * width) := by
  rw [bound_eq, Nat.pow_mul]

theorem bound_pos (width : Nat) : 0 < bound width :=
  Nat.pow_pos (by decide)

theorem magnitude_append (front back : Bytes) :
    magnitude (front ++ back) = magnitude front * bound back.length + magnitude back := by
  induction back using List.reverseRecOn with
  | nil => simp [magnitude, bound_eq]
  | append_singleton back byte ih =>
      rw [← List.append_assoc, magnitude_append_singleton, ih, magnitude_append_singleton,
        List.length_append, List.length_singleton, bound_succ]
      ring

theorem magnitude_cons (first : UInt8) (rest : Bytes) :
    magnitude (first :: rest) = first.toNat * bound rest.length + magnitude rest := by
  have split := magnitude_append [first] rest
  simpa [magnitude] using split

theorem magnitude_lt_bound (bytes : Bytes) : magnitude bytes < bound bytes.length := by
  induction bytes with
  | nil => simp [magnitude, bound_eq]
  | cons first rest ih =>
      have digit : (first.toNat + 1) * bound rest.length ≤ 256 * bound rest.length :=
        Nat.mul_le_mul_right _ first.toNat_lt
      rw [magnitude_cons, List.length_cons, bound_succ]
      rw [Nat.add_mul, Nat.one_mul] at digit
      omega

theorem magnitude_ofWidth_of_lt {width value : Nat} (fits : value < bound width) :
    magnitude (ofWidth width value) = value := by
  rw [magnitude_ofWidth, Nat.mod_eq_of_lt fits]

theorem lt_bound_byteLength (value : Nat) : value < bound (byteLength value) := by
  rw [byteLength]
  split
  · simp [*, bound_eq]
  · rw [bound_eq_two_pow]
    calc
      value < 2 ^ (value.log2 + 1) := Nat.lt_log2_self
      _ ≤ 2 ^ (8 * (value.log2 / 8 + 1)) := Nat.pow_le_pow_right (by decide) (by omega)

/-- The minimal form of a number has that number as its magnitude. -/
@[simp]
theorem magnitude_ofNat (value : Nat) : magnitude (ofNat value) = value :=
  magnitude_ofWidth_of_lt (lt_bound_byteLength value)

/-- The sign bit is set exactly for the magnitudes in the upper half. -/
theorem signed_eq_bmod (bytes : Bytes) :
    signed bytes = (magnitude bytes : Int).bmod (bound bytes.length) := by
  cases bytes with
  | nil => simp [signed, magnitude, bound_eq]
  | cons first rest =>
      have small := magnitude_lt_bound rest
      have whole := magnitude_lt_bound (first :: rest)
      have split := magnitude_cons first rest
      have even : bound (first :: rest).length = 256 * bound rest.length := bound_succ _
      rw [signed, Int.bmod_def, Int.emod_eq_of_lt (by omega) (by omega)]
      by_cases low : first < 0x80
      · have digit : (first.toNat + 1) * bound rest.length ≤ 128 * bound rest.length :=
          Nat.mul_le_mul_right _ (UInt8.lt_iff_toNat_lt.1 low)
        rw [Nat.add_mul, Nat.one_mul] at digit
        rw [if_pos low, if_pos (by omega)]
      · have digit : 128 * bound rest.length ≤ first.toNat * bound rest.length :=
          Nat.mul_le_mul_right _ (Nat.le_of_not_lt fun high => low (UInt8.lt_iff_toNat_lt.2 high))
        rw [if_neg low, if_neg (by omega)]

/-- The minimal two's-complement form leaves room for the sign bit. -/
theorem signedByteLength_bounds (value : Int) :
    -(2 ^ (8 * signedByteLength value) : Nat) ≤ 2 * value ∧
      2 * value < (2 ^ (8 * signedByteLength value) : Nat) := by
  have room (number : Nat) : 2 * (number + 1) ≤ 2 ^ (8 * ((number.log2 + 1) / 8 + 1)) := by
    calc
      2 * (number + 1) ≤ 2 * 2 ^ (number.log2 + 1) :=
        Nat.mul_le_mul_left 2 (Nat.succ_le_of_lt Nat.lt_log2_self)
      _ = 2 ^ (number.log2 + 2) := by ring
      _ ≤ 2 ^ (8 * ((number.log2 + 1) / 8 + 1)) := Nat.pow_le_pow_right (by decide) (by omega)
  cases value with
  | ofNat number =>
      have enough := room number
      simp only [signedByteLength, Int.ofNat_eq_natCast]
      split
      · simp [*]
      · omega
  | negSucc complement =>
      have enough := room complement
      simp only [signedByteLength, Int.negSucc_eq]
      omega

/-- The minimal two's-complement form of a number stands for that number. -/
@[simp]
theorem signed_ofInt (value : Int) : signed (ofInt value) = value := by
  have range := signedByteLength_bounds value
  rw [← bound_eq_two_pow] at range
  have positive := bound_pos (signedByteLength value)
  have digits : 0 ≤ value % (bound (signedByteLength value) : Int) :=
    Int.emod_nonneg _ (by omega)
  rw [signed_eq_bmod, ofInt, length_ofWidth, magnitude_ofWidth]
  push_cast [Int.toNat_of_nonneg digits]
  rw [Int.emod_emod, Int.emod_bmod]
  exact Int.bmod_eq_of_le_mul_two (by omega) (by omega)

/-- The digits of a magnitude at its own width are the bytes it was read from. -/
theorem ofWidth_magnitude (bytes : Bytes) : ofWidth bytes.length (magnitude bytes) = bytes := by
  induction bytes using List.reverseRecOn with
  | nil => rfl
  | append_singleton bytes byte ih =>
      have digit := byte.toNat_lt
      have higher : (magnitude bytes * 256 + byte.toNat) / 256 = magnitude bytes := by omega
      have lowest : (magnitude bytes * 256 + byte.toNat) % 256 = byte.toNat := by omega
      rw [List.length_append, List.length_singleton, magnitude_append_singleton, ofWidth, higher,
        lowest, ih, UInt8.ofNat_toNat]

theorem byteLength_le {value width : Nat} (fits : value < bound width) :
    byteLength value ≤ width := by
  rw [byteLength]
  split
  · exact Nat.zero_le width
  · rename_i nonzero
    rw [bound_eq_two_pow, ← Nat.log2_lt nonzero] at fits
    omega

/-- No byte string with the same magnitude is shorter than the minimal form. -/
theorem length_ofNat_magnitude_le (bytes : Bytes) :
    (ofNat (magnitude bytes)).length ≤ bytes.length := by
  rw [ofNat, length_ofWidth]
  exact byteLength_le (magnitude_lt_bound bytes)

theorem bound_le_magnitude {first : UInt8} (nonzero : first ≠ 0) (rest : Bytes) :
    bound rest.length ≤ magnitude (first :: rest) := by
  have digit : 1 ≤ first.toNat :=
    Nat.one_le_iff_ne_zero.2 fun zero => nonzero (UInt8.toNat_inj.1 zero)
  rw [magnitude_cons]
  exact Nat.le_add_right_of_le (Nat.le_mul_of_pos_left _ digit)

theorem magnitude_zero_cons (rest : Bytes) : magnitude (0 :: rest) = magnitude rest := by
  simp [magnitude_cons]

/-- Digits that do not start with a zero are the minimal form of their number. -/
theorem ofNat_magnitude_cons {first : UInt8} (nonzero : first ≠ 0) (rest : Bytes) :
    ofNat (magnitude (first :: rest)) = first :: rest := by
  have atMost := byteLength_le (magnitude_lt_bound (first :: rest))
  have atLeast : ¬byteLength (magnitude (first :: rest)) ≤ rest.length := by
    intro short
    have fits := lt_bound_byteLength (magnitude (first :: rest))
    have wider : bound (byteLength (magnitude (first :: rest))) ≤ bound rest.length :=
      Nat.pow_le_pow_right (by decide) short
    have large := bound_le_magnitude nonzero rest
    omega
  have width : byteLength (magnitude (first :: rest)) = (first :: rest).length := by
    rw [List.length_cons] at atMost ⊢
    omega
  rw [ofNat, width, ofWidth_magnitude]

/-- Without the zeros in front the digits of a number are its minimal form. -/
theorem trimMagnitude_eq_ofNat (bytes : Bytes) :
    trimMagnitude bytes = ofNat (magnitude bytes) := by
  induction bytes with
  | nil => rfl
  | cons first rest ih =>
      rw [trimMagnitude, List.dropWhile_cons]
      by_cases zero : first = 0
      · subst zero
        rw [if_pos (beq_self_eq_true _), magnitude_zero_cons]
        exact ih
      · rw [if_neg (by simpa using zero), ofNat_magnitude_cons zero]

theorem trimMagnitude_ofWidth {value width : Nat} (fits : value < bound width) :
    trimMagnitude (ofWidth width value) = ofNat value := by
  rw [trimMagnitude_eq_ofNat, magnitude_ofWidth_of_lt fits]

theorem signed_bounds (bytes : Bytes) :
    -(bound bytes.length : Int) ≤ 2 * signed bytes ∧
      2 * signed bytes < (bound bytes.length : Int) := by
  have positive := bound_pos bytes.length
  have low := Int.le_bmod (x := (magnitude bytes : Int)) positive
  have high := Int.bmod_lt (x := (magnitude bytes : Int)) positive
  rw [signed_eq_bmod]
  omega

/-- An integer in the range of a width takes no more bytes than the width has. -/
theorem signedByteLength_le {value : Int} {width : Nat}
    (low : -(bound width : Int) ≤ 2 * value) (high : 2 * value < (bound width : Int)) :
    signedByteLength value ≤ width := by
  have room {number : Nat} (fits : 2 * number < bound width) (nonzero : number ≠ 0) :
      (number.log2 + 1) / 8 + 1 ≤ width := by
    rw [bound_eq_two_pow] at fits
    have doubled : 2 * number ≠ 0 := by omega
    have digits : (2 * number).log2 = number.log2 + 1 := Nat.log2_two_mul nonzero
    rw [← Nat.log2_lt doubled, digits] at fits
    omega
  cases value with
  | ofNat number =>
      simp only [signedByteLength]
      split
      · exact Nat.zero_le width
      · rename_i nonzero
        simp only [Int.ofNat_eq_natCast] at high
        exact room (by omega) nonzero
  | negSucc complement =>
      simp only [signedByteLength, Int.negSucc_eq] at low ⊢
      by_cases zero : complement = 0
      · subst zero
        cases width with
        | zero => simp [bound_eq] at low
        | succ width => simp
      · exact room (by omega) zero

/-- No byte string that stands for the same number is shorter than the minimal form. -/
theorem length_ofInt_signed_le (bytes : Bytes) :
    (ofInt (signed bytes)).length ≤ bytes.length := by
  have range := signed_bounds bytes
  rw [ofInt, length_ofWidth]
  exact signedByteLength_le range.1 range.2

end ContractAbi.BigEndian
