import ContractAbi.Proofs.Codec.ZeroWidth

/-!
# Lists up to the end of a payload

The items of a list that is a whole payload are decoded in a loop, as long as there are
bytes.  An item that takes none ends the loop as well.  This can only be the first item,
since then no item of the template takes any; so a list that has been decoded cuts its
payload into pieces, one for each item, or has left all of it.
-/

namespace ContractAbi

namespace Value

/-- `LoopsTo decodeItem input rounds outcome` describes the loop round by round: it goes on
as long as there are bytes, and is left in a round that fails or takes no bytes. -/
inductive LoopsTo (decodeItem : Bytes → Decoded Value) :
    Bytes → Nat → Decoded (List Value) → Prop where
  | exhausted : LoopsTo decodeItem [] 0 ⟨[], [], none⟩
  | failed {input item rest error} : input ≠ [] → decodeItem input = ⟨item, rest, some error⟩ →
      LoopsTo decodeItem input 1 ⟨[], rest, some error⟩
  | unmoved {input item rest} : input ≠ [] → decodeItem input = ⟨item, rest, none⟩ →
      rest.length = input.length → LoopsTo decodeItem input 1 ⟨[], rest, none⟩
  | item {input item rest rounds outcome} : input ≠ [] → decodeItem input = ⟨item, rest, none⟩ →
      rest.length ≠ input.length → LoopsTo decodeItem rest rounds outcome →
      LoopsTo decodeItem input (rounds + 1) (outcome.map (item :: ·))

/-- The loop ends after at most as many rounds as there are bytes. -/
theorem loopsTo_decodeToEnd {decodeItem : Bytes → Decoded Value}
    (shrinks : ∀ input item rest, decodeItem input = ⟨item, rest, none⟩ →
      rest.length ≤ input.length) (input : Bytes) :
    ∃ rounds, rounds ≤ input.length ∧
      LoopsTo decodeItem input rounds (decodeToEnd decodeItem input) := by
  fun_induction decodeToEnd decodeItem input with
  | case1 input empty =>
      rw [List.isEmpty_iff.1 empty]
      exact ⟨0, Nat.zero_le _, .exhausted⟩
  | case2 input nonempty first error failed =>
      have bytes : input ≠ [] := by simpa using nonempty
      have head : decodeItem input = ⟨first.target, first.rest, some error⟩ := by rw [← failed]
      exact ⟨1, List.length_pos_iff.2 bytes, .failed bytes head⟩
  | case3 input nonempty first done progress ih =>
      have bytes : input ≠ [] := by simpa using nonempty
      have head : decodeItem input = ⟨first.target, first.rest, none⟩ := by rw [← done]
      rcases ih with ⟨rounds, few, loops⟩
      exact ⟨rounds + 1, by omega, .item bytes head (by omega) loops⟩
  | case4 input nonempty first done stuck =>
      have bytes : input ≠ [] := by simpa using nonempty
      have head : decodeItem input = ⟨first.target, first.rest, none⟩ := by rw [← done]
      have shorter := shrinks input first.target first.rest head
      exact ⟨1, List.length_pos_iff.2 bytes, .unmoved bytes head (by omega)⟩

/-- The item is what the template makes of the segment, which is not empty. -/
def FillsSegment (maxLength : Nat) (template item : Value) (segment : Bytes) : Prop :=
  segment ≠ [] ∧ template.decode maxLength .nested segment = ⟨item, [], none⟩

theorem length_le_of_fillsSegments {maxLength : Nat} {template : Value} {items : List Value}
    {segments : List Bytes}
    (fills : List.Forall₂ (template.FillsSegment maxLength) items segments) :
    items.length ≤ segments.flatten.length := by
  induction fills with
  | nil => exact Nat.le_refl _
  | cons head _ ih =>
      have positive := List.length_pos_iff.2 head.1
      rw [List.flatten_cons, List.length_append, List.length_cons]
      omega

section Items

variable {maxLength : Nat} {template : Value} {input : Bytes}

theorem decodeToEnd_of_isZeroWidth (zeroWidth : template.isZeroWidth = true) :
    decodeToEnd (template.decode maxLength .nested) input = ⟨[], input, none⟩ := by
  by_cases empty : input = []
  · rw [empty, decodeToEnd_nil]
  · have head := decode_of_isZeroWidth maxLength zeroWidth input
    rw [decodeToEnd_of_stuck empty (by rw [head]) (by rw [head]; exact Nat.lt_irrefl _), head]

/-- An item that needs bytes is read from a segment of its own. -/
theorem fillsSegment_of_decode {item : Value} {rest : Bytes} (wide : template.isZeroWidth = false)
    (decoded : template.decode maxLength .nested input = ⟨item, rest, none⟩) :
    ∃ segment, input = segment ++ rest ∧ template.FillsSegment maxLength item segment := by
  rcases readsWhatItDecodes maxLength template input item rest decoded with ⟨segment, split, reads⟩
  have whole := reads.again []
  rw [List.append_nil] at whole
  exact ⟨segment, split, reads.ne_nil wide, whole⟩

/-- Items that need bytes use the input up. -/
theorem segments_of_decodeToEnd (wide : template.isZeroWidth = false)
    (success : (decodeToEnd (template.decode maxLength .nested) input).error = none) :
    (decodeToEnd (template.decode maxLength .nested) input).rest = [] ∧
      ∃ segments, segments.flatten = input ∧
        List.Forall₂ (template.FillsSegment maxLength)
          (decodeToEnd (template.decode maxLength .nested) input).target segments := by
  fun_induction decodeToEnd (template.decode maxLength .nested) input with
  | case1 input empty =>
      rw [List.isEmpty_iff] at empty
      exact ⟨empty, [], empty.symm, .nil⟩
  | case2 input nonempty first error failed => cases success
  | case3 input nonempty first done progress ih =>
      have head : template.decode maxLength .nested input = ⟨first.target, first.rest, none⟩ := by
        rw [← done]
      rcases fillsSegment_of_decode wide head with ⟨segment, split, fillsFirst⟩
      rcases ih success with ⟨used, segments, whole, fills⟩
      refine ⟨used, segment :: segments, ?_, .cons fillsFirst fills⟩
      rw [List.flatten_cons, whole, split]
  | case4 input nonempty first done stuck =>
      have head : template.decode maxLength .nested input = ⟨first.target, first.rest, none⟩ := by
        rw [← done]
      rcases fillsSegment_of_decode wide head with ⟨segment, split, taken, _⟩
      have length := congrArg List.length split
      have positive := List.length_pos_iff.2 taken
      rw [List.length_append] at length
      omega

end Items

/-- A list that is a whole payload is decoded in at most as many rounds as there are bytes.
If this succeeds, the items use the payload up, each with a segment of its own, or the
template has no bytes and the payload is left alone.  A target has no bytes exactly when
it is a struct whose fields have none. -/
theorem decode_topLevel_partitions (maxLength : Nat) (template : Value) (old : List Value)
    (payload : Bytes) :
    (∃ rounds outcome, rounds ≤ payload.length ∧
        LoopsTo (template.decode maxLength .nested) payload rounds outcome ∧
        (outputList old (some template)).decode maxLength .topLevel payload =
          outcome.map (outputList · (some template))) ∧
      (∀ found rest,
        (outputList old (some template)).decode maxLength .topLevel payload =
          ⟨found, rest, none⟩ →
        ∃ items, found = outputList items (some template) ∧
          ((rest = [] ∧ items.length ≤ payload.length ∧ ∃ segments, segments.flatten = payload ∧
              List.Forall₂ (template.FillsSegment maxLength) items segments) ∨
            (template.isZeroWidth = true ∧ items = [] ∧ rest = payload))) ∧
      ∀ (target value : Value) (input rest : Bytes),
        target.decode maxLength .nested input = ⟨value, rest, none⟩ →
        (rest = input ↔ target.isZeroWidth = true) := by
  refine ⟨?_, ?_, ?_⟩
  · have shrinks : ∀ input item rest, template.decode maxLength .nested input = ⟨item, rest, none⟩ →
        rest.length ≤ input.length := by
      intro input item rest decoded
      rcases readsWhatItDecodes maxLength template input item rest decoded with ⟨taken, rfl, _⟩
      rw [List.length_append]
      omega
    rcases loopsTo_decodeToEnd shrinks payload with ⟨rounds, few, loops⟩
    exact ⟨rounds, _, few, loops, by rw [decode]⟩
  · intro found rest decoded
    rw [decode] at decoded
    rcases Decoded.map_eq_success decoded with ⟨items, itemsDecoded, rfl⟩
    refine ⟨items, rfl, ?_⟩
    cases width : template.isZeroWidth with
    | true =>
        rw [decodeToEnd_of_isZeroWidth width] at itemsDecoded
        cases itemsDecoded
        exact Or.inr ⟨rfl, rfl, rfl⟩
    | false =>
        have filled := segments_of_decodeToEnd width (by rw [itemsDecoded])
        rw [itemsDecoded] at filled
        rcases filled with ⟨used, segments, rfl, fills⟩
        exact Or.inl ⟨used, length_le_of_fillsSegments fills, segments, rfl, fills⟩
  · intro target value input rest decoded
    exact decode_takes_nothing_iff decoded

/-- Three options are cut from a payload; structs without fields leave theirs alone. -/
theorem decode_topLevel_partitions_options :
    let template := present (int .u8 0)
    let items := [absent, present (int .u8 7), absent]
    let payload := [0, 1, 7, 0]
    let empty := struct [("unit", struct [])]
    (outputList [] (some template)).decode 0 .topLevel payload =
        ⟨outputList items (some template), [], none⟩ ∧
      (∃ segments, segments.flatten = payload ∧
        List.Forall₂ (template.FillsSegment 0) items segments) ∧
      (outputList [] (some empty)).decode 0 .topLevel payload =
        ⟨outputList [] (some empty), payload, none⟩ ∧
      (payload = payload ↔ empty.isZeroWidth = true) := by
  intro template items payload empty
  have decoded : (outputList [] (some template)).decode 0 .topLevel payload =
      ⟨outputList items (some template), [], none⟩ := by cbv
  have left : (outputList [] (some empty)).decode 0 .topLevel payload =
      ⟨outputList [] (some empty), payload, none⟩ := by cbv
  rcases decode_topLevel_partitions 0 template [] payload with ⟨_, partitions, widths⟩
  rcases partitions _ _ decoded with ⟨found, ⟨⟩, ⟨_, _, segments, whole, fills⟩ | ⟨⟨⟩, _⟩⟩
  exact ⟨decoded, ⟨segments, whole, fills⟩, left, widths empty empty payload payload (by rfl)⟩

end Value

end ContractAbi
