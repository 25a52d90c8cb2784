import ContractAbi.Codec.Decode
import ContractAbi.Proofs.BigEndian
import ContractAbi.Proofs.Utf8

/-!
# Writing in sequence and reading back

What is written in sequence succeeds exactly when its parts do.  Each leaf, and
each length prefix, is read back from its nested form whatever follows it.
-/

namespace ContractAbi

namespace Written

@[simp]
theorem result_done (bytes : Bytes) : (done bytes).result = .ok bytes := rfl

@[simp]
theorem result_failed (error : CodecError) : (failed error).result = .error error := rfl

/-- Two pieces are written if each is. -/
theorem result_append_eq_ok {first second : Written} {bytes : Bytes} :
    (first ++ second).result = .ok bytes ↔
      ∃ front back, first.result = .ok front ∧ second.result = .ok back ∧
        bytes = front ++ back := by
  rcases first with ⟨front, _ | failure⟩
  · rcases second with ⟨back, _ | failure⟩
    · have whole : ((⟨front, none⟩ : Written) ++ ⟨back, none⟩).result = .ok (front ++ back) := rfl
      constructor
      · intro written
        rw [whole, Except.ok.injEq] at written
        exact ⟨front, back, rfl, rfl, written.symm⟩
      · rintro ⟨_, _, ⟨rfl⟩, ⟨rfl⟩, rfl⟩
        exact whole
    · constructor
      · intro written
        cases written
      · rintro ⟨_, _, _, ⟨⟩, _⟩
  · constructor
    · intro written
      cases written
    · rintro ⟨_, _, ⟨⟩, _⟩

@[simp]
theorem result_done_append_eq_ok {front bytes : Bytes} {second : Written} :
    (done front ++ second).result = .ok bytes ↔
      ∃ back, second.result = .ok back ∧ bytes = front ++ back := by
  simp [result_append_eq_ok]

@[simp]
theorem result_inField_eq_ok {name : String} {written : Written} {bytes : Bytes} :
    (written.inField name).result = .ok bytes ↔ written.result = .ok bytes := by
  rcases written with ⟨_, _ | failure⟩
  · rfl
  · constructor <;> (intro written; cases written)

end Written

theorem result_writeLength_eq_ok {length : Nat} {bytes : Bytes} :
    (writeLength length).result = .ok bytes ↔
      length < BigEndian.bound lengthPrefixSize ∧
        bytes = BigEndian.ofWidth lengthPrefixSize length := by
  rw [writeLength]
  split
  · simp [*, eq_comm]
  · simp [*]

namespace Bytes

/-- As many bytes as were written can be read back. -/
theorem readExact_append (front rest : Bytes) :
    readExact front.length (front ++ rest) = ⟨.ok front, rest⟩ := by
  simp [readExact]

/-- A length prefix is read back from the form it is written in. -/
theorem readBoundedLength_append {maxLength length : Nat} {bytes : Bytes}
    (written : (writeLength length).result = .ok bytes) (short : length ≤ maxLength)
    (rest : Bytes) : readBoundedLength maxLength (bytes ++ rest) = ⟨.ok length, rest⟩ := by
  rcases result_writeLength_eq_ok.1 written with ⟨fits, rfl⟩
  have exact := readExact_append (BigEndian.ofWidth lengthPrefixSize length) rest
  rw [BigEndian.length_ofWidth] at exact
  rw [readBoundedLength, readLength, exact]
  simp [Read.map, Read.check, Except.map, Except.bind, BigEndian.magnitude_ofWidth_of_lt fits,
    short]

/-- A payload is read back from the form with its length in front. -/
theorem readPrefixed_append {maxLength : Nat} {payload bytes : Bytes}
    (written : (writePrefixed payload).result = .ok bytes) (short : payload.length ≤ maxLength)
    (rest : Bytes) : readPrefixed maxLength (bytes ++ rest) = ⟨.ok payload, rest⟩ := by
  rcases Written.result_append_eq_ok.1 written with ⟨length, _, lengthWritten, ⟨rfl⟩, rfl⟩
  rw [readPrefixed, List.append_assoc, readBoundedLength_append lengthWritten short]
  exact readExact_append payload rest

end Bytes

namespace IntType

theorem bound_byteWidth (type : IntType) : BigEndian.bound type.byteWidth = 2 ^ type.bits :=
  BigEndian.bound_eq_two_pow type.byteWidth

end IntType

namespace Value

theorem textOfBytes_encode (content : String) :
    textOfBytes (Utf8.encode content.toList) = .ok content := by
  simp [textOfBytes]

theorem readInt_ofWidth (type : IntType) (word : BitVec type.bits) (rest : Bytes) :
    readInt type .nested (BigEndian.ofWidth type.byteWidth word.toNat ++ rest) =
      ⟨.ok word, rest⟩ := by
  have exact := Bytes.readExact_append (BigEndian.ofWidth type.byteWidth word.toNat) rest
  rw [BigEndian.length_ofWidth] at exact
  have fits : word.toNat < BigEndian.bound type.byteWidth :=
    type.bound_byteWidth ▸ word.isLt
  rw [readInt, exact]
  simp [Read.map, Except.map, BigEndian.magnitude_ofWidth_of_lt fits]

theorem result_writeAddress_eq_ok {content bytes : Bytes} :
    (writeAddress content).result = .ok bytes ↔
      content.length = addressLength ∧ bytes = content := by
  rw [writeAddress, checkLength]
  split <;> rename_i checked <;> split at checked <;> simp_all [eq_comm]

end Value

end ContractAbi
