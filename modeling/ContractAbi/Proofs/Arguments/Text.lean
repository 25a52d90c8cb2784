import ContractAbi.Arguments.Text
import ContractAbi.Proofs.Hex
import Mathlib.Data.List.TakeWhile

/-!
# Parts read back from text

A separator with a character that hexadecimal text never has cannot be mistaken
for a part of it, even if it also has digits and so begins inside a part.  An
occurrence of it ends its leading digits where the text ends its own, and that
is at a separator that was written.
-/

namespace ContractAbi

variable {separator digits rest : List Char}

/-- A separator that can be told from hexadecimal text. -/
def Frames (separator : List Char) : Prop :=
  ∃ character ∈ separator, Hex.isWritten character = false

def HasDigits (piece : List Char) : Prop :=
  ∀ character ∈ piece, Hex.isWritten character = true

theorem Frames.ne_nil (frames : Frames separator) : separator ≠ [] := by
  rcases frames with ⟨character, mem, _⟩
  exact List.ne_nil_of_mem mem

/-- The leading digits of a text end inside a separator that stands in it. -/
theorem takeWhile_append_of_frames (frames : Frames separator) (rest : List Char) :
    (separator ++ rest).takeWhile Hex.isWritten = separator.takeWhile Hex.isWritten := by
  rcases frames with ⟨character, mem, foreign⟩
  have stops : (separator.takeWhile Hex.isWritten).length ≠ separator.length := by
    intro whole
    rw [← (List.takeWhile_prefix Hex.isWritten).eq_of_length whole] at mem
    rw [List.mem_takeWhile_imp mem] at foreign
    cases foreign
  rw [List.takeWhile_append, if_neg stops]

theorem not_prefix_of_digits (frames : Frames separator) (each : HasDigits digits) :
    ¬ separator <+: digits := by
  intro isStart
  rcases frames with ⟨character, mem, foreign⟩
  rw [each character (isStart.subset mem)] at foreign
  cases foreign

/-- No separator begins inside a part. -/
theorem not_prefix_before_separator (frames : Frames separator) (each : HasDigits digits)
    (nonempty : digits ≠ []) : ¬ separator <+: digits ++ (separator ++ rest) := by
  rintro ⟨more, same⟩
  have ends := congrArg (List.takeWhile Hex.isWritten) same
  rw [takeWhile_append_of_frames frames, List.takeWhile_append_of_pos each,
    takeWhile_append_of_frames frames] at ends
  exact nonempty (List.append_left_eq_self.1 ends.symm)

theorem piecesBetween_skip (front : List Char) :
    piecesBetween separator front.length (front ++ rest) = piecesBetween separator 0 rest := by
  induction front with
  | nil => rfl
  | cons character front ih => exact ih

theorem piecesBetween_separator (nonempty : separator ≠ []) :
    piecesBetween separator 0 (separator ++ rest) = [] :: piecesBetween separator 0 rest := by
  cases separator with
  | nil => exact absurd rfl nonempty
  | cons character tail =>
      have found : (character :: tail).isPrefixOf (character :: (tail ++ rest)) = true :=
        List.isPrefixOf_iff_prefix.2 (List.prefix_append (character :: tail) rest)
      rw [List.cons_append, piecesBetween, if_pos found, List.length_cons, Nat.add_sub_cancel,
        piecesBetween_skip]

theorem piecesBetween_last (frames : Frames separator) (each : HasDigits digits) :
    piecesBetween separator 0 digits = [digits] := by
  induction digits with
  | nil => rfl
  | cons digit digits ih =>
      have missed : ¬ separator.isPrefixOf (digit :: digits) = true :=
        fun found => not_prefix_of_digits frames each (List.isPrefixOf_iff_prefix.1 found)
      rw [piecesBetween, if_neg missed, ih (List.forall_mem_cons.1 each).2]
      rfl

theorem piecesBetween_first (frames : Frames separator) (each : HasDigits digits) :
    piecesBetween separator 0 (digits ++ (separator ++ rest)) =
      digits :: piecesBetween separator 0 rest := by
  induction digits with
  | nil => exact piecesBetween_separator frames.ne_nil
  | cons digit digits ih =>
      have missed : ¬ separator.isPrefixOf (digit :: (digits ++ (separator ++ rest))) = true :=
        fun found => not_prefix_before_separator frames each (List.cons_ne_nil _ _)
          (List.isPrefixOf_iff_prefix.1 found)
      rw [List.cons_append, piecesBetween, if_neg missed, ih (List.forall_mem_cons.1 each).2]
      rfl

/-- A separator with a sign that is no digit is found where it was put in, and nowhere else. -/
theorem splitPieces_intercalate (frames : Frames separator) {pieces : List (List Char)}
    (nonempty : pieces ≠ []) (each : ∀ piece ∈ pieces, HasDigits piece) :
    splitPieces separator (separator.intercalate pieces) = pieces := by
  have proper : ¬ separator.isEmpty = true := by simpa using frames.ne_nil
  rw [splitPieces, if_neg proper]
  induction pieces with
  | nil => exact absurd rfl nonempty
  | cons piece pieces ih =>
      rw [List.forall_mem_cons] at each
      cases pieces with
      | nil =>
          rw [List.intercalate_singleton]
          exact piecesBetween_last frames each.1
      | cons next pieces =>
          rw [List.intercalate_cons_cons, List.append_assoc, piecesBetween_first frames each.1,
            ih (List.cons_ne_nil _ _) each.2]

theorem decodePieces_encode (index : Nat) (parts : List Bytes) :
    decodePieces index (parts.map Hex.encode) = .ok parts := by
  induction parts generalizing index with
  | nil => rfl
  | cons part parts ih => simp only [List.map_cons, decodePieces, Hex.decode_encode, ih, Except.map]

/-- Some parts, joined, are split into the same parts. -/
theorem splitParts_joinParts {separator : String} (frames : Frames separator.toList)
    {parts : List Bytes} (nonempty : parts ≠ []) :
    splitParts separator (joinParts separator parts) = .ok parts := by
  have each : ∀ piece ∈ parts.map Hex.encode, HasDigits piece := by
    intro piece mem
    rcases List.mem_map.1 mem with ⟨part, _, rfl⟩
    intro character
    exact Hex.isWritten_of_mem_encode
  rw [splitParts, joinParts, String.toList_ofList,
    splitPieces_intercalate frames (by simpa using nonempty) each, decodePieces_encode]

/-- No parts at all are written as one empty part is. -/
theorem splitParts_joinParts_nil {separator : String} (frames : Frames separator.toList) :
    splitParts separator (joinParts separator []) = .ok [[]] := by
  have same : joinParts separator [] = joinParts separator [[]] := rfl
  rw [same, splitParts_joinParts frames (List.cons_ne_nil _ _)]

end ContractAbi
