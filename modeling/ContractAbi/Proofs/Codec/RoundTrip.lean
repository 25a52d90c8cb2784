import ContractAbi.Proofs.Codec.Shape
import ContractAbi.Proofs.Codec.Writing
import Mathlib.Algebra.Order.BigOperators.Group.List

/-!
# Nested values read back

A nested encoding is read back into any target of its shape, whatever follows
it, so it says where it ends.  The induction is over the value; the bytes that
follow are general at every node, since each node is followed by its siblings.
-/

namespace ContractAbi.Value

/-- A value that is read back from its nested form, whatever follows. -/
def ReadsBack (maxLength : Nat) (value target : Value) : Prop :=
  ∀ bytes rest, value.encode .nested = .ok bytes →
    target.decode maxLength .nested (bytes ++ rest) = ⟨value.into target, rest, none⟩

theorem decodeItems_writeItems {maxLength : Nat} {template : Value} {items : List Value}
    (each : ∀ item ∈ items, item.ReadsBack maxLength template) {bytes : Bytes}
    (written : (writeItems items).result = .ok bytes) (rest : Bytes) :
    decodeItems (template.decode maxLength .nested) items.length (bytes ++ rest) =
      ⟨itemsInto template items, rest, none⟩ := by
  induction items generalizing bytes with
  | nil =>
      cases written
      rfl
  | cons item items ih =>
      rcases Written.result_append_eq_ok.1 written with ⟨front, back, first, others, rfl⟩
      rw [List.forall_mem_cons] at each
      have head := each.1 front (back ++ rest) first
      rw [List.length_cons, decodeItems, List.append_assoc, head]
      simp only [ih each.2 others, Decoded.map, itemsInto]

theorem decodeFields_writeFields {maxLength : Nat} {fields targets : Fields}
    (each : List.Forall₂ (fun field target => field.2.ReadsBack maxLength target.2)
      fields targets) {bytes : Bytes}
    (written : (writeFields fields).result = .ok bytes) (rest : Bytes) :
    decodeFields maxLength targets (bytes ++ rest) = ⟨fieldsInto fields targets, rest, none⟩ := by
  induction each generalizing bytes with
  | nil =>
      cases written
      rfl
  | @cons field target fields targets head _ ih =>
      rcases Written.result_append_eq_ok.1 written with ⟨front, back, first, others, rfl⟩
      rw [Written.result_inField_eq_ok] at first
      have here := head front (back ++ rest) first
      rw [decodeFields, List.append_assoc, here]
      simp only [ih others, Decoded.map, fieldsInto]

theorem readsBack_list {maxLength : Nat} {items : List Value} {template : Value}
    (fits : ∀ item ∈ items, item.Fits template)
    (short : ∀ length ∈ items.length :: prefixesOfItems items, length ≤ maxLength)
    (each : ∀ item ∈ items, item.Fits template →
      (∀ length ∈ item.prefixes .nested, length ≤ maxLength) → item.ReadsBack maxLength template)
    (old : List Value) {bytes : Bytes}
    (written : (writeLength items.length ++ writeItems items).result = .ok bytes) (rest : Bytes) :
    (outputList old (some template)).decode maxLength .nested (bytes ++ rest) =
      ⟨outputList (itemsInto template items) (some template), rest, none⟩ := by
  rcases Written.result_append_eq_ok.1 written with ⟨front, back, count, others, rfl⟩
  rw [List.forall_mem_cons, forall_mem_prefixesOfItems] at short
  have counted := Bytes.readBoundedLength_append count short.1 (back ++ rest)
  have items := decodeItems_writeItems
    (fun item mem => each item mem (fits item mem) (short.2 item mem)) others rest
  simp only [decode, List.append_assoc, counted, items, Decoded.map]

theorem readsBack_fields {maxLength : Nat} {fields targets : Fields}
    (fits : List.Forall₂ (fun field target => field.2.Fits target.2) fields targets)
    (short : ∀ length ∈ prefixesOfFields fields, length ≤ maxLength)
    (each : ∀ field ∈ fields, ∀ {target : Value}, field.2.Fits target →
      (∀ length ∈ field.2.prefixes .nested, length ≤ maxLength) →
        field.2.ReadsBack maxLength target) :
    List.Forall₂ (fun field target => field.2.ReadsBack maxLength target.2) fields targets := by
  rw [forall_mem_prefixesOfFields] at short
  apply forall₂_imp_of_mem fits
  intro field mem target fit
  exact each field mem fit (short field mem)

/-- A value of any shape is read back into a target of that shape. -/
theorem readsBack_of_fits {maxLength : Nat} {value target : Value} (fits : value.Fits target)
    (short : ∀ length ∈ value.prefixes .nested, length ≤ maxLength) :
    value.ReadsBack maxLength target := by
  induction value generalizing target with
  | bool value =>
      cases fits
      rintro bytes rest ⟨rfl⟩
      cases value <;> rfl
  | int type word =>
      cases fits
      intro bytes rest encoded
      rw [encode, write, writeInt, Written.result_done, Except.ok.injEq] at encoded
      rw [← encoded, decode, readInt_ofWidth]
      simp only [Read.fill, into]
  | natural value =>
      cases fits
      intro bytes rest encoded
      have read := Bytes.readPrefixed_append encoded (short _ (List.mem_singleton_self _)) rest
      simp only [decode, readPayload, read, Read.fill, BigEndian.magnitude_ofNat, into]
  | integer value =>
      cases fits
      intro bytes rest encoded
      have read := Bytes.readPrefixed_append encoded (short _ (List.mem_singleton_self _)) rest
      simp only [decode, readPayload, read, Read.fill, BigEndian.signed_ofInt, into]
  | text content =>
      cases fits
      intro bytes rest encoded
      have read := Bytes.readPrefixed_append encoded (short _ (List.mem_singleton_self _)) rest
      simp only [decode, readPayload, read, Read.check, Except.bind, textOfBytes_encode, Read.fill,
        into]
  | bytes content =>
      cases fits
      intro bytes rest encoded
      have read := Bytes.readPrefixed_append encoded (short _ (List.mem_singleton_self _)) rest
      simp only [decode, readPayload, read, Read.fill, into]
  | address content =>
      cases fits
      intro bytes rest encoded
      rcases result_writeAddress_eq_ok.1 encoded with ⟨length, rfl⟩
      have read := Bytes.readExact_append bytes rest
      rw [length] at read
      simp only [decode, readAddress, read, Read.fill, into]
  | absent =>
      cases fits with
      | absent =>
          rintro bytes rest ⟨rfl⟩
          rfl
      | absentPresent old =>
          rintro bytes rest ⟨rfl⟩
          rfl
  | present content ih =>
      cases fits with
      | present inner =>
          intro bytes rest encoded
          rcases Written.result_done_append_eq_ok.1 encoded with ⟨back, written, rfl⟩
          have body := ih inner short back rest written
          simp [decode, body, Decoded.map, into]
  | list items ih =>
      cases fits with
      | list old each =>
          intro bytes rest encoded
          exact readsBack_list each short (fun item mem => ih item mem) old encoded rest
  | outputList items own ih _ =>
      cases fits with
      | outputList own old each =>
          intro bytes rest encoded
          exact readsBack_list each short (fun item mem => ih item mem) old encoded rest
  | struct fields ih =>
      cases fits with
      | struct each =>
          intro bytes rest encoded
          have body := decodeFields_writeFields
            (readsBack_fields each short fun field mem => ih field mem) encoded rest
          simp only [decode, body, Decoded.map, into]
  | enum discriminant fields ih =>
      cases fits with
      | enum _ old each =>
          intro bytes rest encoded
          rcases Written.result_done_append_eq_ok.1 encoded with ⟨back, written, rfl⟩
          have body := decodeFields_writeFields
            (readsBack_fields each short fun field mem => ih field mem) written rest
          simp [decode, body, Decoded.map, into]

/-- A nested encoding is read back into any target of the value's shape, and what
follows it is left.  So no nested encoding begins with another one that the same
target would read as a different value. -/
theorem decode_encode_nested {value target : Value} {bytes : Bytes} (fits : value.Fits target)
    (encoded : value.encode .nested = .ok bytes) :
    (∀ maxLength rest, (∀ length ∈ value.prefixes .nested, length ≤ maxLength) →
        target.decode maxLength .nested (bytes ++ rest) = ⟨value.into target, rest, none⟩) ∧
      ∀ (other : Value) (otherBytes : Bytes), other.Fits target →
        other.encode .nested = .ok otherBytes → bytes <+: otherBytes →
          value.into target = other.into target := by
  constructor
  · intro maxLength rest short
    exact readsBack_of_fits fits short bytes rest encoded
  · rintro other otherBytes otherFits otherEncoded ⟨more, rfl⟩
    -- A limit above the prefixes of both values, so that neither is refused.
    have limit : ∀ length ∈ value.prefixes .nested ++ other.prefixes .nested,
        length ≤ (value.prefixes .nested ++ other.prefixes .nested).sum :=
      fun length mem => List.le_sum_of_mem mem
    rw [List.forall_mem_append] at limit
    have first := readsBack_of_fits fits limit.1 bytes more encoded
    have second := readsBack_of_fits otherFits limit.2 (bytes ++ more) [] otherEncoded
    rw [List.append_nil, first, Decoded.mk.injEq] at second
    exact second.1

theorem decode_encode_nested_order :
    let order := struct [("amount", present (integer (-300))),
      ("marks", list [struct [], struct []]), ("memo", absent)]
    let target := struct [("a", present (integer 0)), ("b", outputList [] (some (struct []))),
      ("c", present (text ""))]
    let bytes := [1, 0, 0, 0, 2, 254, 212, 0, 0, 0, 2, 0]
    order.Fits target ∧ order.encode .nested = .ok bytes ∧
      target.decode 2 .nested (bytes ++ [255]) =
        ⟨struct [("a", present (integer (-300))),
          ("b", outputList [struct [], struct []] (some (struct []))), ("c", absent)],
          [255], none⟩ := by
  intro order target bytes
  have empty : ∀ item ∈ [struct [], struct []], item.Fits (struct []) := by
    simp only [List.forall_mem_cons]
    exact ⟨.struct .nil, .struct .nil, by simp⟩
  have fits : order.Fits target :=
    .struct (.cons (.present (.integer _ _))
      (.cons (.list _ empty) (.cons (.absentPresent _) .nil)))
  have encoded : order.encode .nested = .ok bytes := by rfl
  exact ⟨fits, encoded, (decode_encode_nested fits encoded).1 2 [255] (by decide)⟩

end ContractAbi.Value
