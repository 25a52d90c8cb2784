import ContractAbi.Proofs.Codec.Decoding
import ContractAbi.Proofs.Codec.RoundTrip

/-!
# Whole payloads read back

Alone, a value is as short as possible and ends where the payload does.  Only
leaves, lists and fieldless enum variants differ from their nested form; all
other payloads are nested encodings that nothing follows.  A top-level list has
no count, so an item without bytes would be lost.
-/

namespace ContractAbi

theorem IntType.toNat_le_maxValue {type : IntType} {word : BitVec type.bits}
    (nonneg : 0 ≤ type.value word) : word.toNat ≤ type.maxValue := by
  have bound := word.isLt
  have cardinality : type.cardinality = 2 ^ type.bits := rfl
  have even : 2 ^ type.bits = 2 * (2 ^ type.bits / 2) := by cases type <;> rfl
  rw [IntType.value] at nonneg
  rw [IntType.maxValue, cardinality]
  cases signed : type.isSigned with
  | false =>
      simp only [Bool.false_eq_true, if_false]
      omega
  | true =>
      simp only [signed, if_true, BitVec.toInt_eq_toNat_cond] at nonneg ⊢
      split at nonneg <;> omega

namespace Value

/-- The digits that a word has in any case, without the zeros in front, are its minimal form. -/
theorem writeInt_topLevel {type : IntType} {word : BitVec type.bits}
    (nonneg : 0 ≤ type.value word) :
    writeInt type word .topLevel = .done (BigEndian.ofNat word.toNat) := by
  have fits : word.toNat < BigEndian.bound type.byteWidth := type.bound_byteWidth ▸ word.isLt
  rw [writeInt, if_neg (Int.not_lt.2 nonneg), BigEndian.trimMagnitude_ofWidth fits]

theorem wordOfMagnitude_ofNat {type : IntType} {word : BitVec type.bits}
    (nonneg : 0 ≤ type.value word) :
    wordOfMagnitude type (BigEndian.ofNat word.toNat) = .ok word := by
  rw [wordOfMagnitude, BigEndian.magnitude_ofNat, if_pos (IntType.toNat_le_maxValue nonneg),
    BitVec.ofNat_toNat, BitVec.setWidth_eq]

theorem readPayload_topLevel {content payload : Bytes}
    (written : (writePayload content .topLevel).result = .ok payload) (maxLength : Nat) :
    readPayload maxLength .topLevel payload = ⟨.ok content, []⟩ := by
  rcases written with ⟨rfl⟩
  rfl

theorem decodePayload_of_decode {maxLength : Nat} {target result : Value} {payload : Bytes}
    (decoded : target.decode maxLength .topLevel payload = ⟨result, [], none⟩) :
    target.decodePayload maxLength payload = (result, none) := by
  simp only [decodePayload, decoded]

/-- Items that take bytes are read back up to the end of the payload. -/
theorem decodeToEnd_writeItems {maxLength : Nat} {template : Value} {items : List Value}
    (each : ∀ item ∈ items, item.ReadsBack maxLength template)
    (wide : ∀ item ∈ items, item.encode .nested ≠ .ok []) {payload : Bytes}
    (written : (writeItems items).result = .ok payload) :
    decodeToEnd (template.decode maxLength .nested) payload =
      ⟨itemsInto template items, [], none⟩ := by
  induction items generalizing payload with
  | nil =>
      cases written
      exact decodeToEnd_nil
  | cons item items ih =>
      rcases Written.result_append_eq_ok.1 written with ⟨front, back, first, others, rfl⟩
      rw [List.forall_mem_cons] at each wide
      have head := each.1 front back first
      have taken : front ≠ [] := by
        rintro rfl
        exact wide.1 first
      have progress : back.length < (front ++ back).length := by
        rw [List.length_append]
        have := List.length_pos_iff.2 taken
        omega
      rw [decodeToEnd_of_progress (by rw [head]) (by rw [head]; exact progress), head,
        ih each.2 wide.2 others]
      rfl

/-- A list is read back without a count, if no item is empty. -/
theorem decode_list_topLevel {maxLength : Nat} {items : List Value} {template : Value}
    (fits : ∀ item ∈ items, item.Fits template)
    (short : ∀ length ∈ prefixesOfItems items, length ≤ maxLength)
    (wide : ∀ item ∈ items, item.encode .nested ≠ .ok []) (old : List Value) {payload : Bytes}
    (written : (writeItems items).result = .ok payload) :
    (outputList old (some template)).decode maxLength .topLevel payload =
      ⟨outputList (itemsInto template items) (some template), [], none⟩ := by
  rw [forall_mem_prefixesOfItems] at short
  have each : ∀ item ∈ items, item.ReadsBack maxLength template := by
    intro item mem
    exact readsBack_of_fits (fits item mem) (short item mem)
  simp only [decode, decodeToEnd_writeItems each wide written, Decoded.map]

/-- A value whose target reads a whole payload as it reads within a value. -/
theorem decode_topLevel_of_nested {maxLength : Nat} {value target : Value} {payload : Bytes}
    (fits : value.Fits target) (short : ∀ length ∈ value.prefixes .nested, length ≤ maxLength)
    (encoded : value.encode .nested = .ok payload)
    (same : target.decode maxLength .topLevel payload = target.decode maxLength .nested payload) :
    target.decode maxLength .topLevel payload = ⟨value.into target, [], none⟩ := by
  have back := readsBack_of_fits fits short payload [] encoded
  rw [List.append_nil] at back
  rw [same, back]

/-- A value is read back from its whole payload, if each item of a list has bytes.  Values with a
form of their own for a whole payload are gone through one by one; the others are read as within a
value. -/
theorem decode_encode_topLevel {maxLength : Nat} {value target : Value} {payload : Bytes}
    (fits : value.Fits target) (short : ∀ length ∈ value.prefixes .topLevel, length ≤ maxLength)
    (wide : ∀ item ∈ value.items, item.encode .nested ≠ .ok [])
    (encoded : value.encode .topLevel = .ok payload) :
    target.decode maxLength .topLevel payload = ⟨value.into target, [], none⟩ := by
  cases fits with
  | bool value old =>
      rcases encoded with ⟨rfl⟩
      cases value <;> rfl
  | int type word old =>
      rw [encode, write] at encoded
      by_cases negative : type.value word < 0
      · rw [writeInt, if_pos negative] at encoded
        cases encoded
      · have nonneg := Int.not_lt.1 negative
        rw [writeInt_topLevel nonneg, Written.result_done, Except.ok.injEq] at encoded
        subst encoded
        have read := wordOfMagnitude_ofNat nonneg
        simp only [decode, readInt, Bytes.readAll, Read.check, Except.bind, read, Read.fill, into]
  | natural value old =>
      have read := readPayload_topLevel encoded maxLength
      simp only [decode, read, Read.fill, BigEndian.magnitude_ofNat, into]
  | integer value old =>
      have read := readPayload_topLevel encoded maxLength
      simp only [decode, read, Read.fill, BigEndian.signed_ofInt, into]
  | text content old =>
      have read := readPayload_topLevel encoded maxLength
      simp only [decode, read, Read.check, Except.bind, textOfBytes_encode, Read.fill, into]
  | bytes content old =>
      have read := readPayload_topLevel encoded maxLength
      simp only [decode, read, Read.fill, into]
  | address content old =>
      rcases result_writeAddress_eq_ok.1 encoded with ⟨length, rfl⟩
      have read := Bytes.readExact_append payload []
      rw [length, List.append_nil] at read
      simp only [decode, readAddress, checkLength, length, if_true, read, Read.fill, into]
  | absent =>
      rcases encoded with ⟨rfl⟩
      rfl
  | absentPresent old =>
      rcases encoded with ⟨rfl⟩
      rfl
  | present inner =>
      apply decode_topLevel_of_nested (.present inner) short encoded
      apply decode_present_topLevel
      rcases Written.result_done_append_eq_ok.1 encoded with ⟨back, _, rfl⟩
      simp
  | list old each => exact decode_list_topLevel each short wide old encoded
  | outputList own old each => exact decode_list_topLevel each short wide old encoded
  | struct each =>
      apply decode_topLevel_of_nested (.struct each) short encoded
      simp only [decode]
  | @enum fields targets discriminant old each =>
      rw [encode, write] at encoded
      split at encoded
      · rename_i unit
        rcases encoded with ⟨rfl⟩
        rcases unit with ⟨rfl, empty⟩
        rw [List.isEmpty_iff] at empty
        subst empty
        cases each
        rfl
      · apply decode_topLevel_of_nested (.enum _ old each) short encoded
        apply decode_enum_topLevel
        rcases Written.result_done_append_eq_ok.1 encoded with ⟨back, _, rfl⟩
        simp

/-- A value is read back from its payload, and nothing of the payload is left.  The
one exception is a list with items that take no bytes, which no payload can count. -/
theorem decodePayload_encode {maxLength : Nat} {value target : Value} {payload : Bytes}
    (fits : value.Fits target) (short : ∀ length ∈ value.prefixes .topLevel, length ≤ maxLength)
    (wide : ∀ item ∈ value.items, item.encode .nested ≠ .ok [])
    (encoded : value.encode .topLevel = .ok payload) :
    target.decodePayload maxLength payload = (value.into target, none) :=
  decodePayload_of_decode (decode_encode_topLevel fits short wide encoded)

theorem decodePayload_encode_flags :
    let flags := list [present (bool true), absent]
    let target := outputList [] (some (present (bool false)))
    flags.Fits target ∧ (∀ length ∈ flags.prefixes .topLevel, length ≤ 0) ∧
      (∀ item ∈ flags.items, item.encode .nested ≠ .ok []) ∧
      flags.encode .topLevel = .ok [1, 1, 0] ∧
      target.decodePayload 0 [1, 1, 0] =
        (outputList [present (bool true), absent] (some (present (bool false))), none) := by
  intro flags target
  have each : ∀ item ∈ [present (bool true), absent], item.Fits (present (bool false)) := by
    simp only [List.forall_mem_cons]
    exact ⟨.present (.bool _ _), .absentPresent _, by simp⟩
  have fits : flags.Fits target := .list _ each
  have short : ∀ length ∈ flags.prefixes .topLevel, length ≤ 0 := by decide
  have wide : ∀ item ∈ flags.items, item.encode .nested ≠ .ok [] := by
    simp only [flags, items, List.forall_mem_cons]
    exact ⟨by decide, by decide, by simp⟩
  have encoded : flags.encode .topLevel = .ok [1, 1, 0] := by rfl
  exact ⟨fits, short, wide, encoded, decodePayload_encode fits short wide encoded⟩

end Value

end ContractAbi
