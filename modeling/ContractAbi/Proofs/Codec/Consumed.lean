import ContractAbi.Proofs.Codec.Decoding
import ContractAbi.Proofs.Codec.Shape
import ContractAbi.Proofs.Codec.Writing

/-!
# What a decoder takes

A nested decoder that succeeds has taken a beginning of its input, and takes
exactly that from any input that begins so.  The value that it leaves has the
shape of its target and a nested form that is no longer than what was taken.  Only
options, naturals and integers can take more than this form: a presence byte may
be any but zero, and a magnitude may be padded.
-/

namespace ContractAbi

theorem result_writePrefixed_eq_ok {payload bytes : Bytes} :
    (writePrefixed payload).result = .ok bytes ↔
      payload.length < BigEndian.bound lengthPrefixSize ∧
        bytes = BigEndian.ofWidth lengthPrefixSize payload.length ++ payload := by
  rw [writePrefixed, Written.result_append_eq_ok]
  simp only [result_writeLength_eq_ok, Written.result_done, Except.ok.injEq]
  constructor
  · rintro ⟨_, _, ⟨fits, rfl⟩, rfl, rfl⟩
    exact ⟨fits, rfl⟩
  · rintro ⟨fits, rfl⟩
    exact ⟨_, _, ⟨fits, rfl⟩, rfl, rfl⟩

/-- A payload that is no longer has a form that is no longer. -/
theorem writePrefixed_of_length_le {payload shorter bytes : Bytes}
    (written : (writePrefixed payload).result = .ok bytes)
    (length : shorter.length ≤ payload.length) :
    ∃ form, (writePrefixed shorter).result = .ok form ∧ form.length ≤ bytes.length := by
  rcases result_writePrefixed_eq_ok.1 written with ⟨fits, rfl⟩
  refine ⟨_, result_writePrefixed_eq_ok.2 ⟨by omega, rfl⟩, ?_⟩
  simp only [List.length_append, BigEndian.length_ofWidth]
  omega

namespace Bytes

theorem readByte_eq_ok {input rest : Bytes} {byte : UInt8}
    (success : readByte input = ⟨.ok byte, rest⟩) : input = byte :: rest := by
  cases input with
  | nil => cases success
  | cons first others =>
      cases success
      rfl

theorem readExact_eq_ok {count : Nat} {input payload rest : Bytes}
    (success : readExact count input = ⟨.ok payload, rest⟩) :
    payload.length = count ∧ input = payload ++ rest := by
  simp only [readExact] at success
  split at success
  · cases success
  · rename_i enough
    cases success
    rw [List.length_take] at enough
    exact ⟨by rw [List.length_take]; omega, (List.take_append_drop count input).symm⟩

/-- A length prefix is read from the form it is written in. -/
theorem readBoundedLength_eq_ok {maxLength length : Nat} {input rest : Bytes}
    (success : readBoundedLength maxLength input = ⟨.ok length, rest⟩) :
    length ≤ maxLength ∧ ∃ bytes, (writeLength length).result = .ok bytes ∧
      input = bytes ++ rest := by
  rcases Read.check_eq_ok success with ⟨found, counted, bounded⟩
  split at bounded
  · rename_i small
    cases bounded
    rcases Read.map_eq_ok counted with ⟨bytes, exact, rfl⟩
    rcases readExact_eq_ok exact with ⟨width, rfl⟩
    refine ⟨small, bytes, result_writeLength_eq_ok.2 ⟨?_, ?_⟩, rfl⟩
    · rw [← width]
      exact BigEndian.magnitude_lt_bound bytes
    · rw [← width, BigEndian.ofWidth_magnitude]
  · cases bounded

/-- A payload is read from the form with its length in front. -/
theorem readPrefixed_eq_ok {maxLength : Nat} {input payload rest : Bytes}
    (success : readPrefixed maxLength input = ⟨.ok payload, rest⟩) :
    payload.length ≤ maxLength ∧ ∃ bytes, (writePrefixed payload).result = .ok bytes ∧
      input = bytes ++ rest := by
  rcases Read.andThen_eq_ok success with ⟨length, middle, counted, exact⟩
  rcases readBoundedLength_eq_ok counted with ⟨small, bytes, written, rfl⟩
  rcases readExact_eq_ok exact with ⟨rfl, rfl⟩
  refine ⟨small, bytes ++ payload, ?_, (List.append_assoc bytes payload rest).symm⟩
  exact Written.result_append_eq_ok.2 ⟨bytes, payload, written, rfl, rfl⟩

end Bytes

namespace Value

mutual

/-- Whether each value of a target's shape has a single nested form. -/
def hasOneForm : Value → Bool
  | natural _ | integer _ | absent | present _ => false
  | outputList _ (some template) => template.hasOneForm
  | struct fields | enum _ fields => fieldsHaveOneForm fields
  | _ => true

def fieldsHaveOneForm : Fields → Bool
  | [] => true
  | (_, target) :: fields => target.hasOneForm && fieldsHaveOneForm fields

end

/-- The target reads the value from these bytes and nothing else. -/
structure Reads (maxLength : Nat) (target value : Value) (bytes : Bytes) : Prop where
  again : ∀ more, target.decode maxLength .nested (bytes ++ more) = ⟨value, more, none⟩
  fits : value.Fits target
  into : value.into target = value
  short : ∀ length ∈ value.prefixes .nested, length ≤ maxLength
  written : ∃ form, value.encode .nested = .ok form ∧ form.length ≤ bytes.length ∧
    (target.hasOneForm = true → form = bytes)

structure ReadsItems (maxLength : Nat) (template : Value) (items : List Value) (bytes : Bytes) :
    Prop where
  again : ∀ more, decodeItems (template.decode maxLength .nested) items.length (bytes ++ more) =
    ⟨items, more, none⟩
  fits : ∀ item ∈ items, item.Fits template
  into : itemsInto template items = items
  short : ∀ length ∈ prefixesOfItems items, length ≤ maxLength
  written : ∃ form, (writeItems items).result = .ok form ∧ form.length ≤ bytes.length ∧
    (template.hasOneForm = true → form = bytes)

structure ReadsFields (maxLength : Nat) (targets fields : Fields) (bytes : Bytes) : Prop where
  again : ∀ more, decodeFields maxLength targets (bytes ++ more) = ⟨fields, more, none⟩
  fits : List.Forall₂ (fun field target => field.2.Fits target.2) fields targets
  into : fieldsInto fields targets = fields
  short : ∀ length ∈ prefixesOfFields fields, length ≤ maxLength
  written : ∃ form, (writeFields fields).result = .ok form ∧ form.length ≤ bytes.length ∧
    (fieldsHaveOneForm targets = true → form = bytes)

section Sequences

variable {maxLength : Nat} {template target value : Value} {front back : Bytes}

theorem ReadsItems.nil : ReadsItems maxLength template [] [] := by
  refine ⟨fun _ => rfl, by simp, rfl, by simp [prefixesOfItems], [], rfl, Nat.le_refl _, ?_⟩
  intro _
  rfl

theorem ReadsItems.cons {items : List Value} (head : template.Reads maxLength value front)
    (tail : ReadsItems maxLength template items back) :
    ReadsItems maxLength template (value :: items) (front ++ back) := by
  rcases head.written with ⟨first, firstWritten, firstLength, firstSame⟩
  rcases tail.written with ⟨others, othersWritten, othersLength, othersSame⟩
  refine ⟨?_, ?_, ?_, ?_, first ++ others, ?_, ?_, ?_⟩
  · intro more
    rw [List.length_cons, decodeItems, List.append_assoc, head.again]
    simp only [tail.again, Decoded.map]
  · exact List.forall_mem_cons.2 ⟨head.fits, tail.fits⟩
  · rw [itemsInto, head.into, tail.into]
  · rw [prefixesOfItems, List.forall_mem_append]
    exact ⟨head.short, tail.short⟩
  · exact Written.result_append_eq_ok.2 ⟨first, others, firstWritten, othersWritten, rfl⟩
  · rw [List.length_append, List.length_append]
    omega
  · intro one
    rw [firstSame one, othersSame one]

theorem ReadsFields.nil : ReadsFields maxLength [] [] [] := by
  refine ⟨fun _ => rfl, .nil, rfl, by simp [prefixesOfFields], [], rfl, Nat.le_refl _, ?_⟩
  intro _
  rfl

theorem ReadsFields.cons {targets fields : Fields} (name : String)
    (head : target.Reads maxLength value front) (tail : ReadsFields maxLength targets fields back) :
    ReadsFields maxLength ((name, target) :: targets) ((name, value) :: fields)
      (front ++ back) := by
  rcases head.written with ⟨first, firstWritten, firstLength, firstSame⟩
  rcases tail.written with ⟨others, othersWritten, othersLength, othersSame⟩
  refine ⟨?_, .cons head.fits tail.fits, ?_, ?_, first ++ others, ?_, ?_, ?_⟩
  · intro more
    rw [decodeFields, List.append_assoc, head.again]
    simp only [tail.again, Decoded.map]
  · rw [fieldsInto, head.into, tail.into]
  · rw [prefixesOfFields, List.forall_mem_append]
    exact ⟨head.short, tail.short⟩
  · refine Written.result_append_eq_ok.2 ⟨first, others, ?_, othersWritten, rfl⟩
    exact Written.result_inField_eq_ok.2 firstWritten
  · rw [List.length_append, List.length_append]
    omega
  · intro one
    rw [fieldsHaveOneForm, Bool.and_eq_true] at one
    rw [firstSame one.1, othersSame one.2]

end Sequences

/-- Whatever a target decodes, it reads from the bytes that it takes. -/
def ReadsWhatItDecodes (maxLength : Nat) (target : Value) : Prop :=
  ∀ input value rest, target.decode maxLength .nested input = ⟨value, rest, none⟩ →
    ∃ bytes, input = bytes ++ rest ∧ target.Reads maxLength value bytes

theorem readsItems_of_decodeItems {maxLength count : Nat} {template : Value} {items : List Value}
    {input rest : Bytes} (each : template.ReadsWhatItDecodes maxLength)
    (decoded : decodeItems (template.decode maxLength .nested) count input = ⟨items, rest, none⟩) :
    items.length = count ∧
      ∃ bytes, input = bytes ++ rest ∧ ReadsItems maxLength template items bytes := by
  induction count generalizing input items with
  | zero =>
      cases decoded
      exact ⟨rfl, [], rfl, .nil⟩
  | succ count ih =>
      rcases decodeItems_succ_eq_success decoded with ⟨first, middle, others, head, tail, rfl⟩
      rcases each _ _ _ head with ⟨front, rfl, reads⟩
      rcases ih tail with ⟨length, back, rfl, readsOthers⟩
      refine ⟨by rw [List.length_cons, length], front ++ back, ?_, .cons reads readsOthers⟩
      rw [List.append_assoc]

theorem readsFields_of_decodeFields {maxLength : Nat} {targets fields : Fields}
    {input rest : Bytes} (each : ∀ field ∈ targets, field.2.ReadsWhatItDecodes maxLength)
    (decoded : decodeFields maxLength targets input = ⟨fields, rest, none⟩) :
    ∃ bytes, input = bytes ++ rest ∧ ReadsFields maxLength targets fields bytes := by
  induction targets generalizing input fields with
  | nil =>
      cases decoded
      exact ⟨[], rfl, .nil⟩
  | cons target targets ih =>
      rw [List.forall_mem_cons] at each
      rcases decodeFields_cons_eq_success decoded with ⟨first, middle, others, head, tail, rfl⟩
      rcases each.1 _ _ _ head with ⟨front, rfl, reads⟩
      rcases ih each.2 tail with ⟨back, rfl, readsOthers⟩
      refine ⟨front ++ back, ?_, .cons target.1 reads readsOthers⟩
      rw [List.append_assoc]

theorem boolOfByte_eq_ok {byte : UInt8} {value : Bool} (success : boolOfByte byte = .ok value) :
    byte = if value then 1 else 0 := by
  rw [boolOfByte] at success
  split at success
  · cases success
    assumption
  · split at success
    · cases success
      assumption
    · cases success

theorem textOfBytes_eq_ok {payload : Bytes} {content : String}
    (success : textOfBytes payload = .ok content) : Utf8.encode content.toList = payload := by
  rw [textOfBytes] at success
  split at success
  · rename_i read
    cases success
    rw [String.toList_ofList, Utf8.encode_of_decode read]
  · cases success

/-- What was taken is the form of the value. -/
theorem Reads.of_written {maxLength : Nat} {target value : Value} {bytes : Bytes}
    (fits : value.Fits target) (into : value.into target = value)
    (short : ∀ length ∈ value.prefixes .nested, length ≤ maxLength)
    (again : ∀ more, target.decode maxLength .nested (bytes ++ more) = ⟨value, more, none⟩)
    (written : value.encode .nested = .ok bytes) : target.Reads maxLength value bytes :=
  ⟨again, fits, into, short, bytes, written, Nat.le_refl _, fun _ => rfl⟩

/-- A leaf behind a length prefix whose own form is at most as long as the payload. -/
theorem Reads.of_payload {maxLength : Nat} {target value : Value} {payload form bytes : Bytes}
    (fits : value.Fits target) (into : value.into target = value)
    (prefixed : value.write .nested = writePrefixed form)
    (counted : value.prefixes .nested = [form.length])
    (again : ∀ more, target.decode maxLength .nested (bytes ++ more) = ⟨value, more, none⟩)
    (small : payload.length ≤ maxLength) (written : (writePrefixed payload).result = .ok bytes)
    (length : form.length ≤ payload.length) (same : target.hasOneForm = true → form = payload) :
    target.Reads maxLength value bytes := by
  rcases writePrefixed_of_length_le written length with ⟨shorter, shorterWritten, shorterLength⟩
  refine ⟨again, fits, into, ?_, shorter, ?_, shorterLength, ?_⟩
  · rw [counted, List.forall_mem_singleton]
    exact Nat.le_trans length small
  · rw [encode, prefixed, shorterWritten]
  · intro one
    rw [same one, written, Except.ok.injEq] at shorterWritten
    exact shorterWritten.symm

section Composites

variable {maxLength : Nat} {target value : Value} {bytes front : Bytes}

theorem Reads.present {presence : UInt8} (nonzero : presence ≠ 0)
    (reads : target.Reads maxLength value bytes) :
    (present target).Reads maxLength (present value) (presence :: bytes) := by
  rcases reads.written with ⟨form, written, length, _⟩
  refine ⟨?_, .present reads.fits, ?_, reads.short, 1 :: form, ?_, ?_, ?_⟩
  · intro more
    simp only [List.cons_append, decode, if_neg nonzero, reads.again, Decoded.map]
  · rw [Value.into, reads.into]
  · exact Written.result_done_append_eq_ok.2 ⟨form, written, rfl⟩
  · simpa using length
  · simp [hasOneForm]

theorem Reads.outputList {items old : List Value} {template : Value}
    (small : items.length ≤ maxLength) (counted : (writeLength items.length).result = .ok front)
    (reads : ReadsItems maxLength template items bytes) :
    (outputList old (some template)).Reads maxLength (outputList items (some template))
      (front ++ bytes) := by
  rcases reads.written with ⟨form, written, length, same⟩
  refine ⟨?_, .outputList _ _ reads.fits, ?_, ?_, front ++ form, ?_, ?_, ?_⟩
  · intro more
    simp only [List.append_assoc, decode, Bytes.readBoundedLength_append counted small,
      reads.again, Decoded.map]
  · rw [Value.into, reads.into]
  · exact List.forall_mem_cons.2 ⟨small, reads.short⟩
  · exact Written.result_append_eq_ok.2 ⟨front, form, counted, written, rfl⟩
  · simpa using length
  · intro one
    rw [same (by rwa [hasOneForm] at one)]

theorem Reads.struct {targets fields : Fields}
    (reads : ReadsFields maxLength targets fields bytes) :
    (struct targets).Reads maxLength (struct fields) bytes := by
  rcases reads.written with ⟨form, written, length, same⟩
  refine ⟨?_, .struct reads.fits, ?_, reads.short, form, written, length, ?_⟩
  · intro more
    simp only [decode, reads.again, Decoded.map]
  · rw [Value.into, reads.into]
  · intro one
    exact same (by rwa [hasOneForm] at one)

theorem Reads.enum {targets fields : Fields} (discriminant old : UInt8)
    (reads : ReadsFields maxLength targets fields bytes) :
    (enum old targets).Reads maxLength (enum discriminant fields) (discriminant :: bytes) := by
  rcases reads.written with ⟨form, written, length, same⟩
  refine ⟨?_, .enum _ _ reads.fits, ?_, reads.short, discriminant :: form, ?_, ?_, ?_⟩
  · intro more
    simp only [List.cons_append, decode, reads.again, Decoded.map]
  · rw [Value.into, reads.into]
  · exact Written.result_done_append_eq_ok.2 ⟨form, written, rfl⟩
  · simpa using length
  · intro one
    rw [same (by rwa [hasOneForm] at one)]

end Composites

/-- A leaf is built from every payload behind a length prefix, and has a form that is no longer
than the payload. -/
theorem readsWhatItDecodes_of_payload {maxLength : Nat} {target : Value} {build : Bytes → Value}
    {form : Bytes → Bytes}
    (decodes : ∀ input, target.decode maxLength .nested input =
      (readPayload maxLength .nested input).fill target build)
    (fits : ∀ payload, (build payload).Fits target)
    (into : ∀ payload, (build payload).into target = build payload)
    (prefixed : ∀ payload, (build payload).write .nested = writePrefixed (form payload))
    (counted : ∀ payload, (build payload).prefixes .nested = [(form payload).length])
    (length : ∀ payload, (form payload).length ≤ payload.length)
    (same : target.hasOneForm = true → ∀ payload, form payload = payload) :
    target.ReadsWhatItDecodes maxLength := by
  intro input value rest decoded
  rw [decodes] at decoded
  rcases Read.fill_eq_success decoded with ⟨payload, read, rfl⟩
  rcases Bytes.readPrefixed_eq_ok read with ⟨small, bytes, written, rfl⟩
  refine ⟨bytes, rfl, .of_payload (fits payload) (into payload) (prefixed payload)
    (counted payload) ?_ small written (length payload) fun one => same one payload⟩
  intro more
  simp only [decodes, readPayload, Bytes.readPrefixed_append written small, Read.fill]

/-- A nested decoder that succeeds leaves a value that it reads from what it took. -/
theorem readsWhatItDecodes (maxLength : Nat) (target : Value) :
    target.ReadsWhatItDecodes maxLength := by
  induction target with
  | bool old =>
      intro input value rest decoded
      rcases Read.fill_eq_success (by rwa [decode] at decoded) with ⟨found, read, rfl⟩
      rcases Read.check_eq_ok read with ⟨byte, byteRead, checked⟩
      have same := Bytes.readByte_eq_ok byteRead
      rw [boolOfByte_eq_ok checked] at same
      refine ⟨_, same, .of_written (.bool _ _) rfl (by simp [prefixes]) ?_ rfl⟩
      intro more
      cases found <;> rfl
  | int type old =>
      intro input value rest decoded
      rcases Read.fill_eq_success (by rwa [decode] at decoded) with ⟨found, read, rfl⟩
      rcases Read.map_eq_ok read with ⟨payload, exact, rfl⟩
      rcases Bytes.readExact_eq_ok exact with ⟨width, rfl⟩
      have small := BigEndian.magnitude_lt_bound payload
      have form : BigEndian.ofWidth type.byteWidth (BigEndian.magnitude payload) = payload := by
        rw [← width, BigEndian.ofWidth_magnitude]
      rw [width, type.bound_byteWidth] at small
      refine ⟨payload, rfl, .of_written (.int _ _ _) rfl (by simp [prefixes]) ?_ ?_⟩
      · intro more
        rw [decode, readInt, ← width, Bytes.readExact_append]
        rfl
      · rw [encode, write, writeInt, BitVec.toNat_ofNat, Nat.mod_eq_of_lt small, form]
        rfl
  | natural old =>
      exact readsWhatItDecodes_of_payload (fun _ => by rw [decode]) (fun _ => .natural _ _)
        (fun _ => rfl) (fun _ => rfl) (fun _ => rfl) BigEndian.length_ofNat_magnitude_le
        (by simp [hasOneForm])
  | integer old =>
      exact readsWhatItDecodes_of_payload (fun _ => by rw [decode]) (fun _ => .integer _ _)
        (fun _ => rfl) (fun _ => rfl) (fun _ => rfl) BigEndian.length_ofInt_signed_le
        (by simp [hasOneForm])
  | text old =>
      intro input value rest decoded
      rcases Read.fill_eq_success (by rwa [decode] at decoded) with ⟨content, read, rfl⟩
      rcases Read.check_eq_ok read with ⟨payload, payloadRead, checked⟩
      rcases Bytes.readPrefixed_eq_ok payloadRead with ⟨small, bytes, written, rfl⟩
      have form := textOfBytes_eq_ok checked
      refine ⟨bytes, rfl, .of_payload (.text _ _) rfl rfl rfl ?_ small written
        (Nat.le_of_eq (congrArg List.length form)) fun _ => form⟩
      intro more
      simp only [decode, readPayload, Bytes.readPrefixed_append written small, Read.check,
        Except.bind, checked, Read.fill]
  | bytes old =>
      exact readsWhatItDecodes_of_payload (fun _ => by rw [decode]) (fun _ => .bytes _ _)
        (fun _ => rfl) (fun _ => rfl) (fun _ => rfl) (fun _ => Nat.le_refl _)
        fun _ _ => rfl
  | address old =>
      intro input value rest decoded
      rcases Read.fill_eq_success (by rwa [decode] at decoded) with ⟨content, read, rfl⟩
      rcases Bytes.readExact_eq_ok read with ⟨width, rfl⟩
      refine ⟨content, rfl, .of_written (.address _ _) rfl (by simp [prefixes]) ?_ ?_⟩
      · intro more
        rw [decode, readAddress, ← width, Bytes.readExact_append]
        rfl
      · exact result_writeAddress_eq_ok.2 ⟨width, rfl⟩
  | absent =>
      intro input value rest decoded
      rcases Read.fill_eq_success (by simpa [decode] using decoded) with ⟨⟨⟩, read, rfl⟩
      rcases Read.check_eq_ok read with ⟨presence, byteRead, checked⟩
      have same := Bytes.readByte_eq_ok byteRead
      split at checked
      · rename_i zero
        subst zero
        refine ⟨[0], same, .of_written .absent rfl (by simp [prefixes]) ?_ rfl⟩
        intro more
        rfl
      · cases checked
  | present content ih =>
      intro input value rest decoded
      cases input with
      | nil => simp [decode] at decoded
      | cons presence others =>
          by_cases zero : presence = 0
          · subst zero
            simp only [decode, if_true, Decoded.mk.injEq] at decoded
            rcases decoded with ⟨rfl, rfl, _⟩
            refine ⟨[0], rfl, .of_written (.absentPresent _) rfl (by simp [prefixes]) ?_ rfl⟩
            intro more
            rfl
          · simp only [decode, if_neg zero] at decoded
            rcases Decoded.map_eq_success decoded with ⟨inner, innerDecoded, rfl⟩
            rcases ih _ _ _ innerDecoded with ⟨bytes, rfl, reads⟩
            exact ⟨presence :: bytes, rfl, reads.present zero⟩
  | list items _ =>
      intro input value rest decoded
      simp [decode] at decoded
  | outputList items template _ ih =>
      intro input value rest decoded
      cases template with
      | none => simp [decode] at decoded
      | some template =>
          rcases decode_outputList_eq_success decoded with
            ⟨count, middle, found, counted, itemsDecoded, rfl⟩
          rcases Bytes.readBoundedLength_eq_ok counted with ⟨small, front, countWritten, rfl⟩
          rcases readsItems_of_decodeItems (ih template rfl) itemsDecoded with
            ⟨rfl, back, rfl, reads⟩
          refine ⟨front ++ back, (List.append_assoc _ _ _).symm, ?_⟩
          exact .outputList small countWritten reads
  | struct fields ih =>
      intro input value rest decoded
      rw [decode] at decoded
      rcases Decoded.map_eq_success decoded with ⟨found, fieldsDecoded, rfl⟩
      rcases readsFields_of_decodeFields ih fieldsDecoded with ⟨bytes, rfl, reads⟩
      exact ⟨bytes, rfl, .struct reads⟩
  | enum old fields ih =>
      intro input value rest decoded
      cases input with
      | nil => simp [decode] at decoded
      | cons discriminant others =>
          simp only [decode] at decoded
          rcases Decoded.map_eq_success decoded with ⟨found, fieldsDecoded, rfl⟩
          rcases readsFields_of_decodeFields ih fieldsDecoded with ⟨bytes, rfl, reads⟩
          exact ⟨discriminant :: bytes, rfl, .enum discriminant old reads⟩

end Value

end ContractAbi
