import ContractAbi.Proofs.Codec.Consumed
import ContractAbi.Proofs.Codec.Extension
import ContractAbi.Proofs.Codec.Payload

/-!
# Decoding and encoding again

What a decoder accepts need not be what the encoder writes, but every value that
it leaves has an encoding, which is no longer than the input and is read as the
same value.  At top level the shorter encodings are those of defaults, which are
accepted when they are spelled out.
-/

namespace ContractAbi

theorem IntType.value_nonneg {type : IntType} {number : Nat} (small : number ≤ type.maxValue) :
    (BitVec.ofNat type.bits number).toNat = number ∧
      0 ≤ type.value (BitVec.ofNat type.bits number) := by
  have cardinality : type.cardinality = 2 ^ type.bits := rfl
  have even : 2 ^ type.bits = 2 * (2 ^ type.bits / 2) := by cases type <;> rfl
  have positive : 0 < 2 ^ type.bits := Nat.two_pow_pos _
  rw [IntType.maxValue, cardinality] at small
  have fits : (BitVec.ofNat type.bits number).toNat = number := by
    rw [BitVec.toNat_ofNat, Nat.mod_eq_of_lt]
    split at small <;> omega
  refine ⟨fits, ?_⟩
  rw [IntType.value]
  split
  · rename_i signed
    rw [if_pos signed] at small
    rw [BitVec.toInt_eq_toNat_cond, fits, if_pos (by omega)]
    omega
  · omega

namespace Value

theorem decode_of_decodePayload {maxLength : Nat} {target value : Value} {payload : Bytes}
    (success : target.decodePayload maxLength payload = (value, none)) :
    target.decode maxLength .topLevel payload = ⟨value, [], none⟩ := by
  rcases decoded : target.decode maxLength .topLevel payload with ⟨found, rest, error⟩
  simp only [decodePayload, decoded] at success
  split at success <;> cases success
  rfl

theorem readBool_topLevel_eq_ok {payload rest : Bytes} {value : Bool}
    (success : readBool .topLevel payload = ⟨.ok value, rest⟩) :
    (writeBool value .topLevel).bytes.length ≤ payload.length := by
  cases payload with
  | nil =>
      cases success
      exact Nat.le_refl _
  | cons byte others => cases value <;> simp [writeBool, Written.done]

theorem readAddress_topLevel_eq_ok {payload content rest : Bytes}
    (success : readAddress .topLevel payload = ⟨.ok content, rest⟩) (whole : rest = []) :
    content.length = addressLength ∧ content = payload := by
  subst whole
  rw [readAddress] at success
  split at success
  · rcases Bytes.readExact_eq_ok success with ⟨length, rfl⟩
    exact ⟨length, (List.append_nil content).symm⟩
  · cases success

/-- An item that takes some bytes has a form of some bytes. -/
theorem encode_ne_nil_of_progress {maxLength : Nat} {template item : Value} {front back : Bytes}
    (reads : template.Reads maxLength item front)
    (progress : back.length < (front ++ back).length) : item.encode .nested ≠ .ok [] := by
  intro empty
  -- A form without bytes would be read from any input, and would leave all of it.
  have untouched := readsBack_of_fits reads.fits reads.short [] (front ++ back) empty
  rw [List.nil_append, reads.again, Decoded.mk.injEq] at untouched
  have same := congrArg List.length untouched.2.1
  omega

/-- A list read to the end of its payload reads the same bytes item by item, and each item took at
least one. -/
theorem readsItems_of_decodeToEnd {maxLength : Nat} {template : Value} {items : List Value}
    {input : Bytes}
    (decoded : decodeToEnd (template.decode maxLength .nested) input = ⟨items, [], none⟩) :
    ReadsItems maxLength template items input ∧ ∀ item ∈ items, item.encode .nested ≠ .ok [] := by
  induction items generalizing input with
  | nil =>
      rcases decodeToEnd_eq_success decoded with ⟨rfl, _⟩ | ⟨_, _, _, _, _, _, ⟨⟩⟩
      exact ⟨.nil, by simp⟩
  | cons item items ih =>
      rcases decodeToEnd_eq_success decoded with
        ⟨_, ⟨⟩⟩ | ⟨first, middle, others, head, progress, tail, same⟩
      cases same
      rcases readsWhatItDecodes maxLength template _ _ _ head with ⟨front, rfl, reads⟩
      rcases ih tail with ⟨readsOthers, wide⟩
      refine ⟨.cons reads readsOthers, List.forall_mem_cons.2 ⟨?_, wide⟩⟩
      exact encode_ne_nil_of_progress reads progress

/-- The value has a payload that is no longer than this one and is read as the value. -/
def HasPayload (maxLength : Nat) (target value : Value) (payload : Bytes) : Prop :=
  ∃ form, value.encode .topLevel = .ok form ∧ form.length ≤ payload.length ∧
    target.decode maxLength .topLevel form = ⟨value, [], none⟩

section Payloads

variable {maxLength : Nat} {target value : Value} {payload : Bytes}

theorem HasPayload.of_fits (fits : value.Fits target) (into : value.into target = value)
    (short : ∀ length ∈ value.prefixes .topLevel, length ≤ maxLength)
    (wide : ∀ item ∈ value.items, item.encode .nested ≠ .ok []) {form : Bytes}
    (encoded : value.encode .topLevel = .ok form) (length : form.length ≤ payload.length) :
    target.HasPayload maxLength value payload := by
  have back := decode_encode_topLevel fits short wide encoded
  rw [into] at back
  exact ⟨form, encoded, length, back⟩

/-- A value with a single form is its own payload. -/
theorem HasPayload.of_reads (reads : target.Reads maxLength value payload)
    (same : value.encode .topLevel = value.encode .nested)
    (alike : value.prefixes .topLevel = value.prefixes .nested) (noItem : value.items = []) :
    target.HasPayload maxLength value payload := by
  rcases reads.written with ⟨form, written, length, _⟩
  refine .of_fits reads.fits reads.into ?_ ?_ (same.trans written) length
  · rw [alike]
    exact reads.short
  · simp [noItem]

/-- What is read to the end of its input reads the whole input. -/
theorem reads_of_decode_whole
    (decoded : target.decode maxLength .nested payload = ⟨value, [], none⟩) :
    target.Reads maxLength value payload := by
  rcases readsWhatItDecodes maxLength target _ _ _ decoded with ⟨bytes, same, reads⟩
  rw [List.append_nil] at same
  exact same ▸ reads

/-- A value that was read from a whole payload has a payload of its own, no longer and read as the
same value.  A number may have been padded and an absent option may have had a byte; a list is read
item by item, and all else as the bytes of the value itself. -/
theorem hasPayload_of_decode
    (decoded : target.decode maxLength .topLevel payload = ⟨value, [], none⟩) :
    target.HasPayload maxLength value payload := by
  cases target with
  | bool old =>
      rcases Read.fill_eq_success (by rwa [decode] at decoded) with ⟨found, read, rfl⟩
      exact .of_fits (.bool _ _) rfl (by simp [prefixes]) (by simp [items]) rfl
        (readBool_topLevel_eq_ok read)
  | int type old =>
      rcases Read.fill_eq_success (by rwa [decode] at decoded) with ⟨found, read, rfl⟩
      rcases Read.check_eq_ok read with ⟨all, allRead, checked⟩
      cases allRead
      simp only [wordOfMagnitude] at checked
      split at checked
      · rename_i small
        cases checked
        rcases IntType.value_nonneg small with ⟨same, nonneg⟩
        refine .of_fits (.int _ _ _) rfl (by simp [prefixes]) (by simp [items]) ?_
          (BigEndian.length_ofNat_magnitude_le payload)
        rw [encode, write, writeInt_topLevel nonneg, same]
        rfl
      · cases checked
  | natural old =>
      rcases Read.fill_eq_success (by rwa [decode] at decoded) with ⟨all, read, rfl⟩
      cases read
      exact .of_fits (.natural _ _) rfl (by simp [prefixes]) (by simp [items]) rfl
        (BigEndian.length_ofNat_magnitude_le payload)
  | integer old =>
      rcases Read.fill_eq_success (by rwa [decode] at decoded) with ⟨all, read, rfl⟩
      cases read
      exact .of_fits (.integer _ _) rfl (by simp [prefixes]) (by simp [items]) rfl
        (BigEndian.length_ofInt_signed_le payload)
  | text old =>
      rcases Read.fill_eq_success (by rwa [decode] at decoded) with ⟨content, read, rfl⟩
      rcases Read.check_eq_ok read with ⟨all, allRead, checked⟩
      cases allRead
      exact .of_fits (.text _ _) rfl (by simp [prefixes]) (by simp [items]) rfl
        (Nat.le_of_eq (congrArg List.length (textOfBytes_eq_ok checked)))
  | bytes old =>
      rcases Read.fill_eq_success (by rwa [decode] at decoded) with ⟨all, read, rfl⟩
      cases read
      exact .of_fits (.bytes _ _) rfl (by simp [prefixes]) (by simp [items]) rfl (Nat.le_refl _)
  | address old =>
      rcases Read.fill_eq_success (by rwa [decode] at decoded) with ⟨content, read, rfl⟩
      rcases readAddress_topLevel_eq_ok read rfl with ⟨length, rfl⟩
      exact .of_fits (.address _ _) rfl (by simp [prefixes]) (by simp [items])
        (result_writeAddress_eq_ok.2 ⟨length, rfl⟩) (Nat.le_refl _)
  | absent =>
      cases payload with
      | nil =>
          cases decoded
          exact ⟨[], rfl, Nat.le_refl _, rfl⟩
      | cons presence others =>
          rcases Read.fill_eq_success (by simpa [decode] using decoded) with ⟨⟨⟩, _, rfl⟩
          exact ⟨[], rfl, Nat.zero_le _, rfl⟩
  | present content =>
      cases payload with
      | nil =>
          cases decoded
          exact ⟨[], rfl, Nat.le_refl _, rfl⟩
      | cons presence others =>
          rw [decode_present_topLevel (List.cons_ne_nil _ _)] at decoded
          have reads := reads_of_decode_whole decoded
          cases reads.fits with
          | absentPresent old => exact ⟨[], rfl, Nat.zero_le _, rfl⟩
          | present inner => exact .of_reads reads rfl rfl rfl
  | list items => simp [decode] at decoded
  | outputList old template =>
      cases template with
      | none => simp [decode] at decoded
      | some template =>
          rw [decode] at decoded
          rcases Decoded.map_eq_success decoded with ⟨found, itemsDecoded, rfl⟩
          rcases readsItems_of_decodeToEnd itemsDecoded with ⟨reads, wide⟩
          rcases reads.written with ⟨form, written, length, _⟩
          exact .of_fits (.outputList _ _ reads.fits) (by rw [Value.into, reads.into]) reads.short
            wide written length
  | struct fields =>
      have nested : (struct fields).decode maxLength .nested payload = ⟨value, [], none⟩ := by
        simpa only [decode] using decoded
      have reads := reads_of_decode_whole nested
      cases reads.fits with
      | struct each => exact .of_reads reads rfl rfl rfl
  | enum old fields =>
      cases payload with
      | nil =>
          cases decoded
          exact ⟨[], rfl, Nat.le_refl _, rfl⟩
      | cons discriminant others =>
          rw [decode_enum_topLevel (List.cons_ne_nil _ _)] at decoded
          have reads := reads_of_decode_whole decoded
          cases reads.fits with
          | @enum found _ variant _ each =>
              by_cases unit : variant = 0 ∧ found.isEmpty
              · have encoded : (enum variant found).encode .topLevel = .ok [] := by
                  rw [encode, write, if_pos unit]
                  rfl
                exact .of_fits reads.fits reads.into reads.short (by simp [items]) encoded
                  (Nat.zero_le _)
              · refine .of_reads reads ?_ rfl rfl
                rw [encode, encode, write, write, if_neg unit]

end Payloads

/-- Whatever a decoder accepts, the value that it leaves can be encoded again, into at
most as many bytes, which are read as the same value.  A nested value whose shape has
no option and no number of any size is encoded into the very bytes it was read from. -/
theorem decode_normalForm {maxLength : Nat} {target value : Value} :
    (∀ input rest, target.decode maxLength .nested input = ⟨value, rest, none⟩ →
        ∃ taken form, input = taken ++ rest ∧ value.encode .nested = .ok form ∧
          form.length ≤ taken.length ∧
          target.decode maxLength .nested form = ⟨value, [], none⟩ ∧
          (target.hasOneForm = true → form = taken)) ∧
      ∀ payload, target.decodePayload maxLength payload = (value, none) →
        ∃ form, value.encode .topLevel = .ok form ∧ form.length ≤ payload.length ∧
          target.decodePayload maxLength form = (value, none) := by
  constructor
  · intro input rest decoded
    rcases readsWhatItDecodes maxLength target input value rest decoded with ⟨taken, rfl, reads⟩
    rcases reads.written with ⟨form, written, length, same⟩
    have back := readsBack_of_fits reads.fits reads.short form [] written
    rw [List.append_nil, reads.into] at back
    exact ⟨taken, form, rfl, written, length, back, same⟩
  · intro payload decoded
    rcases hasPayload_of_decode (decode_of_decodePayload decoded) with
      ⟨form, written, length, back⟩
    exact ⟨form, written, length, decodePayload_of_decode back⟩

theorem decode_normalForm_padded :
    let target := outputList []
      (some (struct [("limit", present (natural 0)), ("open", bool false)]))
    let value := outputList [struct [("limit", present (natural 7)), ("open", bool true)]]
      (some (struct [("limit", present (natural 0)), ("open", bool false)]))
    let input := [0, 0, 0, 1, 9, 0, 0, 0, 2, 0, 7, 1, 255]
    let payload := [9, 0, 0, 0, 2, 0, 7, 1]
    target.decode 2 .nested input = ⟨value, [255], none⟩ ∧
      target.decodePayload 2 payload = (value, none) ∧
      (∃ taken form, input = taken ++ [255] ∧ value.encode .nested = .ok form ∧
        form.length ≤ taken.length ∧ target.decode 2 .nested form = ⟨value, [], none⟩ ∧
        (target.hasOneForm = true → form = taken)) ∧
      ∃ form, value.encode .topLevel = .ok form ∧ form.length ≤ payload.length ∧
        target.decodePayload 2 form = (value, none) := by
  intro target value input payload
  have nested : target.decode 2 .nested input = ⟨value, [255], none⟩ := by rfl
  have topLevel : target.decodePayload 2 payload = (value, none) := by cbv
  exact ⟨nested, topLevel, decode_normalForm.1 input [255] nested,
    decode_normalForm.2 payload topLevel⟩

end Value

end ContractAbi
