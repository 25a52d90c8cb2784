import ContractAbi.Proofs.Codec.NormalForm

/-!
# The payloads of numbers

A number alone has many payloads that are read as it and one that is written.  The
written one is told from the others by its first bytes alone: no zero stands before a
magnitude, and before a signed number no byte that only repeats the sign of what follows.
Without such a byte a payload is read as the same number, so the others are longer.
-/

namespace ContractAbi

namespace BigEndian

/-- The first digit adds nothing to the number. -/
def hasLeadingZero : Bytes → Bool
  | [] => false
  | first :: _ => first == 0x00

/-- The first byte only repeats the sign of the next, or stands alone for the number zero. -/
def hasRedundantSign : Bytes → Bool
  | [] => false
  | [sign] => sign == 0x00
  | sign :: next :: _ => if next < 0x80 then sign == 0x00 else sign == 0xff

/-- The other forms that are read as a number are known by their redundant front and are
longer than the one that is written. -/
structure HasShortestForms {Number : Type} (form : Number → Bytes) (number : Bytes → Number)
    (redundant : Bytes → Bool) : Prop where
  number_form (value : Number) : number (form value) = value
  form_number (bytes : Bytes) : redundant bytes = false → form (number bytes) = bytes
  length_form_lt (bytes : Bytes) :
    redundant bytes = true → (form (number bytes)).length < bytes.length

/-- Without leading zeros a natural number has one form, and all others are longer. -/
theorem hasShortestForms_magnitude : HasShortestForms ofNat magnitude hasLeadingZero where
  number_form := magnitude_ofNat
  form_number bytes plain := by
    cases bytes with
    | nil => rfl
    | cons first rest => exact ofNat_magnitude_cons (by simpa [hasLeadingZero] using plain) rest
  length_form_lt bytes padded := by
    cases bytes with
    | nil => cases padded
    | cons first rest =>
        have zero : first = 0x00 := by simpa [hasLeadingZero] using padded
        rw [zero, magnitude_zero_cons]
        exact Nat.lt_succ_of_le (length_ofNat_magnitude_le rest)

section Signs

variable {sign : UInt8} {rest : Bytes}

theorem signed_singleton (byte : UInt8) :
    signed [byte] = if byte.toNat < 128 then (byte.toNat : Int) else byte.toNat - 256 := by
  have low : byte < 0x80 ↔ byte.toNat < 128 := UInt8.lt_iff_toNat_lt
  simp only [signed, low]
  simp [magnitude, bound_eq]

theorem signed_singleton_eq_zero_iff (byte : UInt8) : signed [byte] = 0 ↔ byte = 0x00 := by
  have digit := byte.toNat_lt
  have zero : byte = 0x00 ↔ byte.toNat = 0 := UInt8.toNat_inj.symm
  rw [signed_singleton, zero]
  split <;> omega

theorem signed_singleton_eq_neg_one_iff (byte : UInt8) : signed [byte] = -1 ↔ byte = 0xff := by
  have digit := byte.toNat_lt
  have ones : byte = 0xff ↔ byte.toNat = 255 := UInt8.toNat_inj.symm
  rw [signed_singleton, ones]
  split <;> omega

/-- Of a signed number only the first digit has a sign. -/
theorem signed_cons (sign : UInt8) (rest : Bytes) :
    signed (sign :: rest) = signed [sign] * bound rest.length + magnitude rest := by
  rw [signed, signed]
  split
  · rw [magnitude_cons, magnitude_cons]
    simp [magnitude, bound_eq]
  · rw [magnitude_cons, magnitude_cons, List.length_cons, bound_succ]
    simp [magnitude, bound_eq]
    ring

theorem signed_cons_bmod (sign : UInt8) (rest : Bytes) :
    (signed (sign :: rest)).bmod (bound rest.length) = signed rest := by
  rw [signed_cons, Int.mul_add_bmod_self_right, signed_eq_bmod]

/-- A sign byte is redundant exactly if the bytes after it stand for the same number. -/
theorem signed_cons_eq_iff :
    signed (sign :: rest) = signed rest ↔ hasRedundantSign (sign :: rest) = true := by
  cases rest with
  | nil => simp [hasRedundantSign, signed_singleton_eq_zero_iff, show signed [] = 0 from rfl]
  | cons next others =>
      have positive := bound_pos (next :: others).length
      have nonzero : (bound (next :: others).length : Int) ≠ 0 := by omega
      rw [signed_cons, hasRedundantSign]
      by_cases low : next < 0x80
      · have tail : signed (next :: others) = 0 * bound (next :: others).length +
            magnitude (next :: others) := by simp [signed, low]
        rw [tail, add_left_inj, mul_left_inj' nonzero, if_pos low, beq_iff_eq]
        exact signed_singleton_eq_zero_iff sign
      · have tail : signed (next :: others) = -1 * bound (next :: others).length +
            magnitude (next :: others) := by rw [signed, if_neg low]; ring
        rw [tail, add_left_inj, mul_left_inj' nonzero, if_neg low, beq_iff_eq]
        exact signed_singleton_eq_neg_one_iff sign

/-- A number that needs its sign byte has no room in fewer bytes. -/
theorem signedByteLength_signed_cons (plain : hasRedundantSign (sign :: rest) = false) :
    signedByteLength (signed (sign :: rest)) = (sign :: rest).length := by
  have range := signed_bounds (sign :: rest)
  have atMost := signedByteLength_le range.1 range.2
  have atLeast : ¬signedByteLength (signed (sign :: rest)) ≤ rest.length := by
    intro short
    have room := signedByteLength_bounds (signed (sign :: rest))
    rw [← bound_eq_two_pow] at room
    have wider : bound (signedByteLength (signed (sign :: rest))) ≤ bound rest.length :=
      Nat.pow_le_pow_right (by decide) short
    -- The number is then its own remainder, which is what the bytes after the sign stand for.
    have same : signed (sign :: rest) = signed rest := by
      rw [← signed_cons_bmod sign rest]
      exact (Int.bmod_eq_of_le_mul_two (by omega) (by omega)).symm
    rw [signed_cons_eq_iff, plain] at same
    cases same
  rw [List.length_cons] at atMost ⊢
  omega

theorem signed_emod_bound (bytes : Bytes) :
    signed bytes % (bound bytes.length : Int) = magnitude bytes := by
  have fits := magnitude_lt_bound bytes
  rw [signed_eq_bmod, Int.bmod_emod, Int.emod_eq_of_lt (by omega) (by omega)]

/-- Without redundant sign bytes an integer has one form in two's complement. -/
theorem hasShortestForms_signed : HasShortestForms ofInt signed hasRedundantSign where
  number_form := signed_ofInt
  form_number bytes plain := by
    cases bytes with
    | nil => rfl
    | cons sign rest =>
        rw [ofInt, signedByteLength_signed_cons plain, signed_emod_bound, Int.toNat_natCast,
          ofWidth_magnitude]
  length_form_lt bytes padded := by
    cases bytes with
    | nil => cases padded
    | cons sign rest =>
        rw [signed_cons_eq_iff.2 padded]
        exact Nat.lt_succ_of_le (length_ofInt_signed_le rest)

end Signs

end BigEndian

/-- Of the payloads that are read alike this one is not redundant, and all others are both
redundant and longer. -/
structure IsCanonical (reads : Bytes → Prop) (redundant : Bytes → Bool) (payload : Bytes) :
    Prop where
  read : reads payload
  plain_iff (other : Bytes) : reads other → (redundant other = false ↔ other = payload)
  length_lt (other : Bytes) : reads other → other ≠ payload → payload.length < other.length

namespace BigEndian.HasShortestForms

variable {Number : Type} {form : Number → Bytes} {number : Bytes → Number}
  {redundant : Bytes → Bool}

theorem form_number_iff (shortest : HasShortestForms form number redundant) (bytes : Bytes) :
    form (number bytes) = bytes ↔ redundant bytes = false := by
  refine ⟨fun same => ?_, shortest.form_number bytes⟩
  by_contra padded
  have longer := shortest.length_form_lt bytes (by simpa using padded)
  rw [same] at longer
  exact Nat.lt_irrefl _ longer

/-- Among the payloads of a value the shortest form is the one without redundancy. -/
theorem isCanonical (shortest : HasShortestForms form number redundant) (value : Number)
    {reads : Bytes → Prop} (reads_iff : ∀ payload, reads payload ↔ number payload = value) :
    IsCanonical reads redundant (form value) where
  read := (reads_iff _).2 (shortest.number_form value)
  plain_iff other read := by
    rw [← shortest.form_number_iff, (reads_iff other).1 read, eq_comm]
  length_lt other read different := by
    have same := (reads_iff other).1 read
    rw [← same] at different ⊢
    apply shortest.length_form_lt
    by_contra plain
    exact different (shortest.form_number other (by simpa using plain)).symm

end BigEndian.HasShortestForms

namespace IntType

theorem value_eq_toNat {type : IntType} {word : BitVec type.bits} (nonneg : 0 ≤ type.value word) :
    type.value word = word.toNat := by
  have fits := word.isLt
  rw [value, BitVec.toInt_eq_toNat_cond] at nonneg ⊢
  split_ifs at nonneg ⊢ <;> omega

theorem value_ofNat {type : IntType} {number : Nat} (small : number ≤ type.maxValue) :
    type.value (BitVec.ofNat type.bits number) = number := by
  rcases value_nonneg small with ⟨same, nonneg⟩
  rw [value_eq_toNat nonneg, same]

end IntType

namespace Value

open BigEndian (magnitude signed hasLeadingZero hasRedundantSign hasShortestForms_magnitude
  hasShortestForms_signed)

section Reading

variable {maxLength : Nat} {payload : Bytes} {type : IntType} {old word : BitVec type.bits}

theorem decodePayload_int :
    (int type old).decodePayload maxLength payload =
      match wordOfMagnitude type payload with
      | .ok word => (int type word, none)
      | .error error => (int type old, some error) := by
  simp only [decodePayload, decode, readInt, Bytes.readAll, Read.check, Except.bind]
  cases wordOfMagnitude type payload <;> rfl

theorem decodePayload_int_of_le (small : magnitude payload ≤ type.maxValue) :
    (int type old).decodePayload maxLength payload =
      (int type (BitVec.ofNat _ (magnitude payload)), none) := by
  rw [decodePayload_int, wordOfMagnitude, if_pos small]

/-- A number above the maximum of the type leaves the target as it was. -/
theorem decodePayload_int_of_lt (large : type.maxValue < magnitude payload) :
    (int type old).decodePayload maxLength payload = (int type old, some (.overflow type)) := by
  rw [decodePayload_int, wordOfMagnitude, if_neg (Nat.not_le.2 large)]

/-- A payload is read as a word if its magnitude is the value of the word, with any number of
leading zeros. -/
theorem decodePayload_int_eq_iff :
    (int type old).decodePayload maxLength payload = (int type word, none) ↔
      magnitude payload ≤ type.maxValue ∧ type.value word = magnitude payload := by
  by_cases small : magnitude payload ≤ type.maxValue
  · rw [decodePayload_int_of_le small]
    constructor
    · rintro ⟨⟩
      exact ⟨small, IntType.value_ofNat small⟩
    · rintro ⟨_, same⟩
      have digits : word.toNat = magnitude payload := by
        have known := IntType.value_eq_toNat (by omega : 0 ≤ type.value word)
        omega
      rw [← digits, BitVec.ofNat_toNat, BitVec.setWidth_eq]
  · rw [decodePayload_int_of_lt (Nat.lt_of_not_le small)]
    simp [small]

theorem exists_decodePayload_int_iff {number : Int} :
    (∃ word, type.value word = number ∧
        (int type old).decodePayload maxLength payload = (int type word, none)) ↔
      number = magnitude payload ∧ magnitude payload ≤ type.maxValue := by
  simp only [decodePayload_int_eq_iff]
  constructor
  · rintro ⟨word, rfl, small, same⟩
    exact ⟨same, small⟩
  · rintro ⟨rfl, small⟩
    exact ⟨_, IntType.value_ofNat small, small, IntType.value_ofNat small⟩

theorem decodePayload_natural (old : Nat) :
    (natural old).decodePayload maxLength payload = (natural (magnitude payload), none) := rfl

theorem decodePayload_integer (old : Int) :
    (integer old).decodePayload maxLength payload = (integer (signed payload), none) := rfl

end Reading

/-- The value is written as the canonical one of the payloads that the target takes for it. -/
def HasCanonicalPayload (maxLength : Nat) (redundant : Bytes → Bool) (target value : Value) :
    Prop :=
  ∃ payload, value.encode .topLevel = .ok payload ∧
    IsCanonical (fun other => target.decodePayload maxLength other = (value, none)) redundant
      payload

section Writing

variable (maxLength : Nat)

theorem hasCanonicalPayload_int {type : IntType} {word : BitVec type.bits}
    (nonneg : 0 ≤ type.value word) (old : BitVec type.bits) :
    (int type old).HasCanonicalPayload maxLength hasLeadingZero (int type word) := by
  have written : (int type word).encode .topLevel = .ok (BigEndian.ofNat word.toNat) := by
    rw [encode, write, writeInt_topLevel nonneg]
    rfl
  refine ⟨_, written, hasShortestForms_magnitude.isCanonical _ ?_⟩
  intro payload
  have fits := IntType.toNat_le_maxValue nonneg
  rw [decodePayload_int_eq_iff, IntType.value_eq_toNat nonneg]
  omega

theorem hasCanonicalPayload_natural (old number : Nat) :
    (natural old).HasCanonicalPayload maxLength hasLeadingZero (natural number) := by
  refine ⟨BigEndian.ofNat number, rfl, hasShortestForms_magnitude.isCanonical _ ?_⟩
  intro payload
  simp [decodePayload_natural]

theorem hasCanonicalPayload_integer (old number : Int) :
    (integer old).HasCanonicalPayload maxLength hasRedundantSign (integer number) := by
  refine ⟨BigEndian.ofInt number, rfl, hasShortestForms_signed.isCanonical _ ?_⟩
  intro payload
  simp [decodePayload_integer]

theorem encode_signed_iff {payload : Bytes} :
    (integer (signed payload)).encode .topLevel = .ok payload ↔
      hasRedundantSign payload = false := by
  have written :
      (integer (signed payload)).encode .topLevel = .ok (BigEndian.ofInt (signed payload)) := rfl
  rw [written, Except.ok.injEq, hasShortestForms_signed.form_number_iff]

end Writing

/-- A machine integer is read from every payload whose magnitude it can hold, and reports an
overflow on all others.  Non-negative integers of all kinds are written without leading
zeros, and signed numbers of any size without a redundant sign byte; no other payload that
is read as the number is of that form, or as short. -/
theorem canonical_payloads (maxLength : Nat) :
    (∀ (type : IntType) (old : BitVec type.bits) (payload : Bytes),
        (∀ number : Int,
          (∃ word, type.value word = number ∧
            (int type old).decodePayload maxLength payload = (int type word, none)) ↔
          number = magnitude payload ∧ magnitude payload ≤ type.maxValue) ∧
        (type.maxValue < magnitude payload →
          (int type old).decodePayload maxLength payload =
            (int type old, some (.overflow type)))) ∧
      (∀ (type : IntType) (old word : BitVec type.bits), 0 ≤ type.value word →
        (int type old).HasCanonicalPayload maxLength hasLeadingZero (int type word)) ∧
      (∀ old number : Nat,
        (natural old).HasCanonicalPayload maxLength hasLeadingZero (natural number)) ∧
      (∀ old number : Int,
        (integer old).HasCanonicalPayload maxLength hasRedundantSign (integer number)) ∧
      (integer 0).encode .topLevel = .ok [] ∧
      ∀ (old : Int) (payload : Bytes),
        (integer old).decodePayload maxLength payload = (integer (signed payload), none) ∧
          ((integer (signed payload)).encode .topLevel = .ok payload ↔
            hasRedundantSign payload = false) := by
  refine ⟨?acceptance, fun _ old _ nonneg => hasCanonicalPayload_int maxLength nonneg old,
    hasCanonicalPayload_natural maxLength, hasCanonicalPayload_integer maxLength, rfl, ?again⟩
  case acceptance =>
    intro type old payload
    exact ⟨fun number => exists_decodePayload_int_iff, decodePayload_int_of_lt⟩
  case again =>
    intro old payload
    exact ⟨decodePayload_integer old, encode_signed_iff⟩

/-- A byte with its highest bit set is no sign for a machine integer, and one for a signed
number of any size. -/
theorem canonical_payloads_highBit :
    let old : BitVec IntType.i16.bits := 7#16
    let word : BitVec IntType.i16.bits := 128#16
    IntType.maxValue .i16 < magnitude [0x80, 0x00] ∧ 0 ≤ IntType.i16.value word ∧
      (int .i16 old).decodePayload 0 [0x80, 0x00] = (int .i16 old, some (.overflow .i16)) ∧
      (int .i16 old).HasCanonicalPayload 0 hasLeadingZero (int .i16 word) ∧
      (integer (signed [0xff, 0x7f])).encode .topLevel = .ok [0xff, 0x7f] ∧
      (integer (signed [0xff, 0x80])).encode .topLevel ≠ .ok [0xff, 0x80] := by
  intro old word
  have large : IntType.maxValue .i16 < magnitude [0x80, 0x00] := by decide
  have nonneg : 0 ≤ IntType.i16.value word := by decide
  rcases canonical_payloads 0 with ⟨acceptance, machine, _, _, _, reproduced⟩
  refine ⟨large, nonneg, (acceptance .i16 old _).2 large, machine .i16 old word nonneg, ?_, ?_⟩
  · exact (reproduced 0 _).2.2 rfl
  · intro same
    cases (reproduced 0 _).2.1 same

end Value

end ContractAbi
