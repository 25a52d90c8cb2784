import ContractAbi.Codec.Decode

/-!
# One step of each decoder

What the loops over items and fields do with the outcome of their next element,
what must have succeeded for them to succeed, and where the two contexts agree.
-/

namespace ContractAbi

namespace Read

variable {α β : Type} {read : Read α} {rest : Bytes}

theorem map_eq_ok {f : α → β} {value : β} (success : read.map f = ⟨.ok value, rest⟩) :
    ∃ found, read = ⟨.ok found, rest⟩ ∧ value = f found := by
  rcases read with ⟨error | found, left⟩
  · cases success
  · cases success
    exact ⟨found, rfl, rfl⟩

theorem check_eq_ok {f : α → Except CodecError β} {value : β}
    (success : read.check f = ⟨.ok value, rest⟩) :
    ∃ found, read = ⟨.ok found, rest⟩ ∧ f found = .ok value := by
  rcases read with ⟨error | found, left⟩
  · cases success
  · simp only [check, Except.bind, Read.mk.injEq] at success
    rcases success with ⟨checked, rfl⟩
    exact ⟨found, rfl, checked⟩

theorem andThen_eq_ok {next : α → Bytes → Read β} {value : β}
    (success : read.andThen next = ⟨.ok value, rest⟩) :
    ∃ found middle, read = ⟨.ok found, middle⟩ ∧ next found middle = ⟨.ok value, rest⟩ := by
  rcases read with ⟨error | found, middle⟩
  · cases success
  · exact ⟨found, middle, rfl, success⟩

theorem fill_eq_success {target value : β} {build : α → β}
    (success : read.fill target build = ⟨value, rest, none⟩) :
    ∃ found, read = ⟨.ok found, rest⟩ ∧ value = build found := by
  rcases read with ⟨error | found, left⟩
  · cases success
  · cases success
    exact ⟨found, rfl, rfl⟩

end Read

theorem Decoded.map_eq_success {α β : Type} {f : α → β} {decoded : Decoded α} {target : β}
    {rest : Bytes} (success : decoded.map f = ⟨target, rest, none⟩) :
    ∃ inner, decoded = ⟨inner, rest, none⟩ ∧ target = f inner := by
  rcases decoded with ⟨inner, left, error⟩
  cases success
  exact ⟨inner, rfl, rfl⟩

namespace Value

theorem boolOfByte_eq_error {byte : UInt8} {error : CodecError}
    (failed : boolOfByte byte = .error error) : error = .invalidBool byte := by
  rw [boolOfByte] at failed
  split at failed
  · cases failed
  · split at failed <;> cases failed
    rfl

theorem textOfBytes_eq_error {payload : Bytes} {error : CodecError}
    (failed : textOfBytes payload = .error error) : ∃ fault, error = .invalidUtf8 fault := by
  rw [textOfBytes] at failed
  split at failed
  · cases failed
  · cases failed
    exact ⟨_, rfl⟩

section Items

variable {decodeItem : Bytes → Decoded Value} {count : Nat} {input : Bytes}

theorem decodeItems_succ_of_error {error : CodecError}
    (failed : (decodeItem input).error = some error) :
    decodeItems decodeItem (count + 1) input = ⟨[], (decodeItem input).rest, some error⟩ := by
  simp only [decodeItems, failed]

theorem decodeItems_succ_of_success (done : (decodeItem input).error = none) :
    decodeItems decodeItem (count + 1) input =
      (decodeItems decodeItem count (decodeItem input).rest).map
        ((decodeItem input).target :: ·) := by
  simp only [decodeItems, done]

theorem decodeItems_succ_eq_success {items : List Value} {rest : Bytes}
    (success : decodeItems decodeItem (count + 1) input = ⟨items, rest, none⟩) :
    ∃ first middle others, decodeItem input = ⟨first, middle, none⟩ ∧
      decodeItems decodeItem count middle = ⟨others, rest, none⟩ ∧ items = first :: others := by
  rcases head : decodeItem input with ⟨first, middle, _ | error⟩
  · rw [decodeItems_succ_of_success (by rw [head]), head] at success
    rcases Decoded.map_eq_success success with ⟨others, tail, rfl⟩
    exact ⟨first, middle, others, rfl, tail, rfl⟩
  · rw [decodeItems_succ_of_error (by rw [head])] at success
    cases success

theorem decodeToEnd_nil : decodeToEnd decodeItem [] = ⟨[], [], none⟩ := by
  rw [decodeToEnd, if_pos List.isEmpty_nil]

theorem decodeToEnd_of_error {error : CodecError} (nonempty : input ≠ [])
    (failed : (decodeItem input).error = some error) :
    decodeToEnd decodeItem input = ⟨[], (decodeItem input).rest, some error⟩ := by
  rw [decodeToEnd, if_neg (by rwa [List.isEmpty_iff])]
  simp only [failed]

theorem decodeToEnd_of_progress (done : (decodeItem input).error = none)
    (progress : (decodeItem input).rest.length < input.length) :
    decodeToEnd decodeItem input =
      (decodeToEnd decodeItem (decodeItem input).rest).map ((decodeItem input).target :: ·) := by
  have nonempty : input ≠ [] := List.ne_nil_of_length_pos (by omega)
  rw [decodeToEnd, if_neg (by rwa [List.isEmpty_iff])]
  simp only [done, if_pos progress]

theorem decodeToEnd_of_stuck (nonempty : input ≠ []) (done : (decodeItem input).error = none)
    (stuck : ¬ (decodeItem input).rest.length < input.length) :
    decodeToEnd decodeItem input = ⟨[], (decodeItem input).rest, none⟩ := by
  rw [decodeToEnd, if_neg (by rwa [List.isEmpty_iff])]
  simp only [done, if_neg stuck]

/-- Items up to the end either are none or begin with one that takes some bytes. -/
theorem decodeToEnd_eq_success {items : List Value}
    (success : decodeToEnd decodeItem input = ⟨items, [], none⟩) :
    (input = [] ∧ items = []) ∨
      ∃ first middle others, decodeItem input = ⟨first, middle, none⟩ ∧
        middle.length < input.length ∧ decodeToEnd decodeItem middle = ⟨others, [], none⟩ ∧
          items = first :: others := by
  by_cases empty : input = []
  · rw [empty, decodeToEnd_nil] at success
    cases success
    exact Or.inl ⟨empty, rfl⟩
  · rcases head : decodeItem input with ⟨first, middle, _ | error⟩
    · by_cases progress : middle.length < input.length
      · rw [decodeToEnd_of_progress (by rw [head]) (by rw [head]; exact progress), head] at success
        rcases Decoded.map_eq_success success with ⟨others, tail, rfl⟩
        exact Or.inr ⟨first, middle, others, rfl, progress, tail, rfl⟩
      · rw [decodeToEnd_of_stuck empty (by rw [head]) (by rw [head]; exact progress), head]
          at success
        cases success
        exact absurd (List.length_pos_iff.2 empty) progress
    · rw [decodeToEnd_of_error empty (by rw [head]), head] at success
      cases success

end Items

section Fields

variable {maxLength : Nat} {name : String} {target : Value} {fields : Fields} {input : Bytes}

theorem decodeFields_cons_of_error {error : CodecError}
    (failed : (target.decode maxLength .nested input).error = some error) :
    decodeFields maxLength ((name, target) :: fields) input =
      ⟨(name, (target.decode maxLength .nested input).target) :: fields,
        (target.decode maxLength .nested input).rest, some (.field name error)⟩ := by
  simp only [decodeFields, failed]

theorem decodeFields_cons_of_success
    (done : (target.decode maxLength .nested input).error = none) :
    decodeFields maxLength ((name, target) :: fields) input =
      (decodeFields maxLength fields (target.decode maxLength .nested input).rest).map
        ((name, (target.decode maxLength .nested input).target) :: ·) := by
  simp only [decodeFields, done]

theorem decodeFields_cons_eq_success {found : Fields} {rest : Bytes}
    (success : decodeFields maxLength ((name, target) :: fields) input = ⟨found, rest, none⟩) :
    ∃ first middle others, target.decode maxLength .nested input = ⟨first, middle, none⟩ ∧
      decodeFields maxLength fields middle = ⟨others, rest, none⟩ ∧
        found = (name, first) :: others := by
  rcases head : target.decode maxLength .nested input with ⟨first, middle, _ | error⟩
  · rw [decodeFields_cons_of_success (by rw [head]), head] at success
    rcases Decoded.map_eq_success success with ⟨others, tail, rfl⟩
    exact ⟨first, middle, others, rfl, tail, rfl⟩
  · rw [decodeFields_cons_of_error (by rw [head])] at success
    cases success

end Fields

section Lists

variable {maxLength : Nat} {items : List Value} {template : Value} {input : Bytes}

theorem decode_outputList_of_error {error : CodecError}
    (failed : (Bytes.readBoundedLength maxLength input).result = .error error) :
    (outputList items (some template)).decode maxLength .nested input =
      ⟨outputList items (some template), (Bytes.readBoundedLength maxLength input).rest,
        some error⟩ := by
  simp only [decode, failed]

theorem decode_outputList_of_count {count : Nat}
    (counted : (Bytes.readBoundedLength maxLength input).result = .ok count) :
    (outputList items (some template)).decode maxLength .nested input =
      (decodeItems (template.decode maxLength .nested) count
        (Bytes.readBoundedLength maxLength input).rest).map (outputList · (some template)) := by
  simp only [decode, counted]

theorem decode_outputList_eq_success {found : Value} {rest : Bytes}
    (success : (outputList items (some template)).decode maxLength .nested input =
      ⟨found, rest, none⟩) :
    ∃ count middle decoded, Bytes.readBoundedLength maxLength input = ⟨.ok count, middle⟩ ∧
      decodeItems (template.decode maxLength .nested) count middle = ⟨decoded, rest, none⟩ ∧
        found = outputList decoded (some template) := by
  rcases counted : Bytes.readBoundedLength maxLength input with ⟨error | count, middle⟩
  · rw [decode_outputList_of_error (by rw [counted])] at success
    cases success
  · rw [decode_outputList_of_count (by rw [counted]), counted] at success
    rcases Decoded.map_eq_success success with ⟨decoded, tail, rfl⟩
    exact ⟨count, middle, decoded, rfl, tail, rfl⟩

end Lists

section Contexts

variable {maxLength : Nat} {payload : Bytes}

/-! The contexts differ only in what they make of no bytes at all. -/

theorem decode_absent_cons (context : Context) (presence : UInt8) (rest : Bytes) :
    absent.decode maxLength context (presence :: rest) =
      ⟨absent, rest, if presence = 0 then none else some .missingOptionTarget⟩ := by
  cases context <;> by_cases zero : presence = 0 <;>
    simp [decode, Bytes.readByte, Read.check, Except.bind, Read.fill, zero]

theorem decode_present_cons (content : Value) (context : Context) (presence : UInt8)
    (rest : Bytes) :
    (present content).decode maxLength context (presence :: rest) =
      if presence = 0 then ⟨absent, rest, none⟩
      else (content.decode maxLength .nested rest).map present := by
  cases context <;> simp only [decode]

theorem decode_enum_cons (old : UInt8) (fields : Fields) (context : Context)
    (discriminant : UInt8) (rest : Bytes) :
    (enum old fields).decode maxLength context (discriminant :: rest) =
      (decodeFields maxLength fields rest).map (enum discriminant) := by
  cases context <;> simp only [decode]

theorem decode_present_topLevel {content : Value} (nonempty : payload ≠ []) :
    (present content).decode maxLength .topLevel payload =
      (present content).decode maxLength .nested payload := by
  cases payload with
  | nil => exact absurd rfl nonempty
  | cons presence rest => rw [decode_present_cons, decode_present_cons]

theorem decode_enum_topLevel {discriminant : UInt8} {fields : Fields} (nonempty : payload ≠ []) :
    (enum discriminant fields).decode maxLength .topLevel payload =
      (enum discriminant fields).decode maxLength .nested payload := by
  cases payload with
  | nil => exact absurd rfl nonempty
  | cons first rest => rw [decode_enum_cons, decode_enum_cons]

end Contexts

end Value

end ContractAbi
