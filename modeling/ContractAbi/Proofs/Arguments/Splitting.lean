import ContractAbi.Proofs.Arguments.Text

/-!
# Splitting and joining

However a separator is found in a text, the pieces with the separator between them
are the text again.  So splitting undoes joining where the separator cannot be taken
for digits, and joining undoes splitting for every separator, up to the case of digits.
-/

namespace ContractAbi

theorem intercalate_cons_of_ne_nil (separator piece : List Char) {pieces : List (List Char)}
    (nonempty : pieces ≠ []) :
    separator.intercalate (piece :: pieces) =
      piece ++ separator ++ separator.intercalate pieces := by
  cases pieces with
  | nil => exact absurd rfl nonempty
  | cons next pieces => rw [List.intercalate_cons_cons, List.append_assoc]

theorem intercalate_concat_of_ne_nil (separator piece : List Char) {pieces : List (List Char)}
    (nonempty : pieces ≠ []) :
    separator.intercalate (pieces ++ [piece]) =
      separator.intercalate pieces ++ (separator ++ piece) := by
  induction pieces with
  | nil => exact absurd rfl nonempty
  | cons first pieces ih =>
      cases pieces with
      | nil => simp
      | cons next pieces =>
          rw [List.cons_append, intercalate_cons_of_ne_nil _ _ (by simp), ih (List.cons_ne_nil _ _),
            List.intercalate_cons_cons]
          simp only [List.append_assoc]

theorem length_intercalate_map {f : List Char → List Char} {pieces : List (List Char)}
    (keeps : ∀ piece, (f piece).length = piece.length) (separator : List Char) :
    (separator.intercalate (pieces.map f)).length = (separator.intercalate pieces).length := by
  induction pieces with
  | nil => rfl
  | cons piece pieces ih =>
      cases pieces with
      | nil => simpa using keeps piece
      | cons next pieces =>
          rw [List.map_cons] at ih ⊢
          simp only [List.map_cons, List.intercalate_cons_cons, List.length_append, keeps, ih]

theorem intercalate_consPiece (separator : List Char) (character : Char)
    {pieces : List (List Char)} (nonempty : pieces ≠ []) :
    separator.intercalate (consPiece character pieces) =
      character :: separator.intercalate pieces := by
  cases pieces with
  | nil => exact absurd rfl nonempty
  | cons piece pieces =>
      rw [consPiece]
      cases pieces with
      | nil => simp
      | cons next pieces => simp [List.intercalate_cons_cons]

theorem piecesBetween_ne_nil (separator : List Char) (skip : Nat) (text : List Char) :
    piecesBetween separator skip text ≠ [] := by
  fun_induction piecesBetween separator skip text with
  | case1 => exact List.cons_ne_nil _ _
  | case2 skip character text ih => exact ih
  | case3 => exact List.cons_ne_nil _ _
  | case4 character text missed ih =>
      cases pieces : piecesBetween separator 0 text <;> simp [consPiece]

/-- The pieces with the separator between them are the text. -/
theorem intercalate_piecesBetween {separator : List Char} (nonempty : separator ≠ [])
    (text : List Char) : separator.intercalate (piecesBetween separator 0 text) = text := by
  induction length : text.length using Nat.strongRecOn generalizing text with
  | ind length ih =>
      have pieces := piecesBetween_ne_nil separator 0
      cases text with
      | nil => simp [piecesBetween]
      | cons character text =>
          by_cases found : separator <+: character :: text
          · -- The occurrence is skipped, and the rest is shorter.
            rcases found with ⟨rest, same⟩
            have positive := List.length_pos_iff.2 nonempty
            have shorter := congrArg List.length same
            rw [List.length_append] at shorter
            rw [← same, piecesBetween_separator nonempty,
              intercalate_cons_of_ne_nil _ _ (pieces rest), ih rest.length (by omega) rest rfl,
              List.nil_append]
          · have missed : ¬ separator.isPrefixOf (character :: text) = true :=
              fun isStart => found (List.isPrefixOf_iff_prefix.1 isStart)
            rw [List.length_cons] at length
            rw [piecesBetween, if_neg missed, intercalate_consPiece _ _ (pieces text),
              ih text.length (by omega) text rfl]

theorem nil_intercalate (pieces : List (List Char)) :
    [].intercalate pieces = pieces.flatten := by
  induction pieces with
  | nil => rfl
  | cons piece pieces ih =>
      cases pieces with
      | nil => simp
      | cons next pieces =>
          rw [List.flatten_cons, intercalate_cons_of_ne_nil _ _ (List.cons_ne_nil _ _), ih,
            List.append_nil]

theorem intercalate_splitPieces (separator text : List Char) :
    separator.intercalate (splitPieces separator text) = text := by
  rw [splitPieces]
  split
  · rename_i empty
    rw [List.isEmpty_iff] at empty
    -- The empty separator cuts out every character, and adds nothing between them.
    rw [empty, nil_intercalate, List.flatten_append, List.flatten_cons, ← List.flatMap_def,
      List.flatMap_singleton']
    simp
  · rename_i nonempty
    exact intercalate_piecesBetween (by simpa using nonempty) text

/-- Parts are read from pieces of digits, and are written as their lower case. -/
theorem encode_of_decodePieces {index : Nat} {pieces : List (List Char)} {parts : List Bytes}
    (read : decodePieces index pieces = .ok parts) :
    parts.map Hex.encode = pieces.map (List.map Char.toLower) := by
  induction pieces generalizing index parts with
  | nil =>
      cases read
      rfl
  | cons piece pieces ih =>
      rw [decodePieces] at read
      split at read
      · cases read
      · rename_i part partRead
        rcases map_eq_ok_iff.1 read with ⟨others, othersRead, rfl⟩
        rw [List.map_cons, List.map_cons, Hex.encode_of_decode partRead, ih othersRead]

/-- A text that can be split is as long as its parts are when they are joined. -/
theorem length_joinParts_of_splitParts {separator text : String} {parts : List Bytes}
    (split : splitParts separator text = .ok parts) :
    (joinParts separator parts).toList.length = text.toList.length := by
  rw [joinParts, String.toList_ofList, encode_of_decodePieces split,
    length_intercalate_map fun piece => List.length_map Char.toLower, intercalate_splitPieces]

/-- Joining and splitting undo each other.  Parts that were joined are split into the same
parts if the separator has a character that is no digit.  Whatever the separator, a text
that can be split consists of pieces of digits with the separator between them, and
joining its parts gives the same text with the digits of the pieces in lower case. -/
theorem splitParts_inverse_joinParts (separator : String) :
    (Frames separator.toList → ∀ parts, parts ≠ [] →
        splitParts separator (joinParts separator parts) = .ok parts) ∧
      ∀ text parts, splitParts separator text = .ok parts →
        ∃ pieces, text = String.ofList (separator.toList.intercalate pieces) ∧
          pieces = splitPieces separator.toList text.toList ∧
          (∀ piece ∈ pieces, HasDigits (piece.map Char.toLower)) ∧
          joinParts separator parts =
            String.ofList (separator.toList.intercalate (pieces.map (List.map Char.toLower))) := by
  constructor
  · intro frames parts some
    exact splitParts_joinParts frames some
  · intro text parts split
    have written := encode_of_decodePieces split
    refine ⟨_, ?_, rfl, ?_, ?_⟩
    · rw [intercalate_splitPieces, String.ofList_toList]
    · intro piece mem
      have lower : piece.map Char.toLower ∈ parts.map Hex.encode := by
        rw [written]
        exact List.mem_map_of_mem mem
      rcases List.mem_map.1 lower with ⟨part, _, same⟩
      rw [← same]
      intro character
      exact Hex.isWritten_of_mem_encode
    · rw [joinParts, written]

/-- A separator that begins like a part, and one that is a digit and keeps its case. -/
theorem splitParts_inverse_joinParts_digits :
    let parts : List Bytes := [[], [0xaa], []]
    Frames "a@a".toList ∧ parts ≠ [] ∧
      splitParts "a@a" (joinParts "a@a" parts) = .ok parts ∧
      splitParts "A" "0bA0C" = .ok [[0x0b], [0x0c]] ∧
      (∃ pieces, "0bA0C" = String.ofList ("A".toList.intercalate pieces) ∧
        joinParts "A" [[0x0b], [0x0c]] =
          String.ofList ("A".toList.intercalate (pieces.map (List.map Char.toLower)))) ∧
      joinParts "A" [[0x0b], [0x0c]] = "0bA0c" := by
  intro parts
  have frames : Frames "a@a".toList := ⟨'@', by decide, by decide⟩
  have nonempty : parts ≠ [] := List.cons_ne_nil _ _
  have split : splitParts "A" "0bA0C" = .ok [[0x0b], [0x0c]] := by rfl
  rcases (splitParts_inverse_joinParts "A").2 _ _ split with ⟨pieces, whole, _, _, joined⟩
  exact ⟨frames, nonempty, (splitParts_inverse_joinParts "a@a").1 frames parts nonempty, split,
    ⟨pieces, whole, joined⟩, by rfl⟩

end ContractAbi
