import ContractAbi.Command.Run
import ContractAbi.Proofs.Arguments.Text
import ContractAbi.Proofs.Text
import ContractAbi.Proofs.Utf8

/-!
# The text of parts as a command reads it

The text of parts has digits and separators only, so it is no hyphen, and trimming finds it
again in what was printed.
-/

namespace ContractAbi

/-- The characters of parts that are joined by the default separator. -/
def isDataCharacter (character : Char) : Bool :=
  Hex.isWritten character || character == '@'

theorem isDataCharacter_of_mem_joinParts {parts : List Bytes} {character : Char}
    (mem : character ∈ (joinParts defaultSeparator parts).toList) :
    isDataCharacter character = true := by
  rw [joinParts, String.toList_ofList] at mem
  rcases mem_intercalate mem with mem | ⟨piece, pieceMem, mem⟩
  · rw [List.mem_singleton.1 mem]
    rfl
  · rcases List.mem_map.1 pieceMem with ⟨part, _, rfl⟩
    rw [isDataCharacter, Hex.isWritten_of_mem_encode mem]
    rfl

theorem not_isBlank_of_isDataCharacter {character : Char}
    (known : isDataCharacter character = true) : Text.isBlank character = false := by
  simp only [isDataCharacter, Hex.isWritten, Bool.or_eq_true, Bool.and_eq_true, decide_eq_true_eq,
    beq_iff_eq] at known
  rcases known with digit | rfl
  · simp only [Text.isBlank, Bool.or_eq_false_iff, Bool.and_eq_false_iff, decide_eq_false_iff_not,
      beq_eq_false_iff_ne]
    omega
  · rfl

theorem notMem_joinParts {character : Char} (excluded : isDataCharacter character = false)
    (parts : List Bytes) : character ∉ (joinParts defaultSeparator parts).toList := by
  intro mem
  rw [isDataCharacter_of_mem_joinParts mem] at excluded
  cases excluded

theorem joinParts_ne_hyphen (parts : List Bytes) : joinParts defaultSeparator parts ≠ "-" := by
  intro same
  have missing : '-' ∉ (joinParts defaultSeparator parts).toList := notMem_joinParts rfl parts
  rw [same] at missing
  exact missing (List.mem_singleton_self _)

namespace Command

/-- `Carries text input data` says that the data is the positional argument, or that this is
a hyphen and the standard input is what a command has printed, with a line break or without. -/
def Carries (text : String) (input : Bytes) (data : String) : Prop :=
  text = data ∨
    text = "-" ∧
      (input = Utf8.encode data.toList ∨ input = Utf8.encode (data.toList ++ ['\n']))

/-- The text of the parts arrives as it was written, without the line feed behind it. -/
theorem readText_of_carries {text : String} {input : Bytes} {parts : List Bytes}
    (carries : Carries text input (joinParts defaultSeparator parts)) :
    readText text input = .ok (joinParts defaultSeparator parts).toList := by
  have solid : ∀ character ∈ (joinParts defaultSeparator parts).toList,
      Text.isBlank character = false :=
    fun _ mem => not_isBlank_of_isDataCharacter (isDataCharacter_of_mem_joinParts mem)
  have trimmed := Text.trim_eq_self solid
  rcases carries with rfl | ⟨rfl, rfl | rfl⟩
  · rw [readText, if_neg (joinParts_ne_hyphen parts), trimmed]
  · rw [readText, if_pos rfl, Utf8.decode_encode]
    simp only [trimmed]
  · have lineTrimmed : Text.trim ((joinParts defaultSeparator parts).toList ++ ['\n']) =
        (joinParts defaultSeparator parts).toList :=
      Text.trim_append solid (List.forall_mem_singleton.2 rfl)
    rw [readText, if_pos rfl, Utf8.decode_encode]
    simp only [lineTrimmed]

end Command

end ContractAbi
