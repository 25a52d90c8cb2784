import ContractAbi.Proofs.Arguments.Filling
import ContractAbi.Proofs.Arguments.RoundTrip
import ContractAbi.Proofs.Codec.NormalForm

/-!
# Reading arguments and writing them again

Each part that is read becomes one single value, in order, and the value is
written again as one part that is no longer.  How many parts an argument takes
depends on their number only, so the parts that are written go where those that
were read have gone, whatever optional and variadic arguments there are.
-/

namespace ContractAbi

/-- A part, the value that was read from it, and the payload of this value. -/
structure Piece where
  part : Bytes
  value : Value
  form : Bytes

structure Piece.IsRead (maxLength : Nat) (piece : Piece) : Prop where
  read : ∃ target : Value, target.decodePayload maxLength piece.part = (piece.value, none)
  written : piece.value.encode .topLevel = .ok piece.form
  length : piece.form.length ≤ piece.part.length

namespace Argument

mutual

/-- The single values of an argument, from left to right. -/
def singles : Argument → List Value
  | single value => [value]
  | multi items => singlesOfItems items
  | absent => []
  | present content => content.singles
  | variadic items _ => singlesOfItems items

def singlesOfItems : List Argument → List Value
  | [] => []
  | item :: items => item.singles ++ singlesOfItems items

end

/-- What has become of the parts between two positions: they are now the single values of
what has been filled, which is written as the forms of these values.  The target is filled
in the same way by the forms, if as many parts follow. -/
structure Takes (maxLength : Nat) (target filled : Argument) (before after : Parts)
    (pieces : List Piece) : Prop where
  read : ∀ piece ∈ pieces, piece.IsRead maxLength
  taken : before.left = pieces.map Piece.part ++ after.left
  singles : filled.singles = pieces.map Piece.value
  openEnded : filled.isOpenEnded = target.isOpenEnded
  written : filled.parts = .ok (pieces.map Piece.form)
  again : ∀ more used, more.length = after.left.length →
    target.fill maxLength ⟨pieces.map Piece.form ++ more, used⟩ =
      ⟨filled, ⟨more, used + pieces.length⟩, none⟩

/-- The same for arguments laid out one after the other. -/
structure TakesItems (maxLength : Nat) (targets filled : List Argument) (before after : Parts)
    (pieces : List Piece) : Prop where
  read : ∀ piece ∈ pieces, piece.IsRead maxLength
  taken : before.left = pieces.map Piece.part ++ after.left
  singles : singlesOfItems filled = pieces.map Piece.value
  openEnded : List.Forall₂ (fun item target => item.isOpenEnded = target.isOpenEnded) filled targets
  written : partsOfItems filled = .ok (pieces.map Piece.form)
  again : ∀ more used, more.length = after.left.length →
    fillItems maxLength targets ⟨pieces.map Piece.form ++ more, used⟩ =
      ⟨filled, ⟨more, used + pieces.length⟩, none⟩

/-- The same for variadic items, which take all parts that are left. -/
structure TakesAll (maxLength : Nat) (template : Argument) (filled : List Argument)
    (before after : Parts) (pieces : List Piece) : Prop where
  read : ∀ piece ∈ pieces, piece.IsRead maxLength
  taken : before.left = pieces.map Piece.part
  rest : after.left = []
  singles : singlesOfItems filled = pieces.map Piece.value
  written : partsOfVariadic filled = .ok (pieces.map Piece.form)
  again : ∀ used, fillVariadic template (template.fill maxLength) ⟨pieces.map Piece.form, used⟩ =
    ⟨filled, ⟨[], used + pieces.length⟩, none⟩

section Sequences

variable {maxLength : Nat} {before middle after : Parts} {front back : List Piece}

theorem TakesItems.nil (parts : Parts) : TakesItems maxLength [] [] parts parts [] :=
  ⟨by simp, rfl, rfl, .nil, rfl, fun _ _ _ => rfl⟩

theorem partsOfItems_cons_of_ok {item : Argument} {items : List Argument}
    {first others : List Bytes} (head : item.parts = .ok first)
    (tail : partsOfItems items = .ok others) :
    partsOfItems (item :: items) = .ok (first ++ others) := by
  rw [partsOfItems, head, tail]
  rfl

theorem TakesItems.cons {target item : Argument} {targets items : List Argument}
    (head : Takes maxLength target item before middle front)
    (tail : TakesItems maxLength targets items middle after back) :
    TakesItems maxLength (target :: targets) (item :: items) before after (front ++ back) := by
  refine ⟨List.forall_mem_append.2 ⟨head.read, tail.read⟩, ?_, ?_,
    .cons head.openEnded tail.openEnded, ?_, ?_⟩
  · rw [head.taken, tail.taken, List.map_append, List.append_assoc]
  · rw [singlesOfItems, head.singles, tail.singles, List.map_append]
  · rw [partsOfItems_cons_of_ok head.written tail.written, List.map_append]
  · intro more used length
    have follow : (back.map Piece.form ++ more).length = middle.left.length := by
      simp [tail.taken, length]
    rw [List.map_append, List.append_assoc, fillItems, head.again _ used follow]
    simp only [tail.again more _ length, Filled.map, List.length_append, Nat.add_assoc]

theorem TakesAll.nil {template : Argument} {parts : Parts} (empty : parts.left = []) :
    TakesAll maxLength template [] parts parts [] := by
  refine ⟨by simp, empty, empty, rfl, rfl, ?_⟩
  intro used
  rw [fillVariadic]
  rfl

theorem partsOfVariadic_cons_of_ok {item : Argument} {items : List Argument}
    {first others : List Bytes} (closed : item.isOpenEnded = false) (head : item.parts = .ok first)
    (tail : partsOfVariadic items = .ok others) :
    partsOfVariadic (item :: items) = .ok (first ++ others) := by
  rw [partsOfVariadic, closed, head, tail]
  rfl

/-- One more item of a repetition, which took at least one part. -/
theorem TakesAll.cons {template item : Argument} {items : List Argument}
    (closed : template.isOpenEnded = false) (progress : middle.left.length < before.left.length)
    (head : Takes maxLength template item before middle front)
    (tail : TakesAll maxLength template items middle after back) :
    TakesAll maxLength template (item :: items) before after (front ++ back) := by
  have nonempty : front ≠ [] := by
    rintro rfl
    rw [head.taken] at progress
    exact Nat.lt_irrefl _ progress
  refine ⟨List.forall_mem_append.2 ⟨head.read, tail.read⟩, ?_, tail.rest, ?_, ?_, ?_⟩
  · rw [head.taken, tail.taken, List.map_append]
  · rw [singlesOfItems, head.singles, tail.singles, List.map_append]
  · rw [partsOfVariadic_cons_of_ok (head.openEnded.trans closed) head.written tail.written,
      List.map_append]
  · intro used
    have follow : (back.map Piece.form).length = middle.left.length := by
      simp [tail.taken]
    have shorter : back.length < front.length + back.length :=
      Nat.lt_add_of_pos_left (List.length_pos_iff.2 nonempty)
    have head := head.again _ used follow
    rw [List.map_append, fillVariadic_of_success closed head (by simpa using shorter), tail.again]
    simp only [Filled.map, List.length_append, Nat.add_assoc]

end Sequences

/-- Whatever the target is filled with, it takes so. -/
def TakesWhatItFills (maxLength : Nat) (target : Argument) : Prop :=
  ∀ before filled after, target.fill maxLength before = ⟨filled, after, none⟩ →
    ∃ pieces, Takes maxLength target filled before after pieces

/-- So are the arguments of a sequence. -/
theorem takesItems_of_fillItems {maxLength : Nat} {targets filled : List Argument}
    {before after : Parts} (each : ∀ target ∈ targets, target.TakesWhatItFills maxLength)
    (success : fillItems maxLength targets before = ⟨filled, after, none⟩) :
    ∃ pieces, TakesItems maxLength targets filled before after pieces := by
  induction targets generalizing before filled with
  | nil =>
      cases success
      exact ⟨[], .nil _⟩
  | cons target targets ih =>
      rw [List.forall_mem_cons] at each
      rcases fillItems_cons_eq_success success with ⟨first, middle, others, head, tail, rfl⟩
      rcases each.1 before first middle head with ⟨front, taken⟩
      rcases ih each.2 tail with ⟨back, takenOthers⟩
      exact ⟨front ++ back, .cons taken takenOthers⟩

theorem takesAll_of_fillVariadic {maxLength : Nat} {template : Argument}
    (each : template.TakesWhatItFills maxLength) {items : List Argument} {before after : Parts}
    (success : fillVariadic template (template.fill maxLength) before = ⟨items, after, none⟩) :
    ∃ pieces, TakesAll maxLength template items before after pieces := by
  induction items generalizing before with
  | nil =>
      rcases fillVariadic_eq_success success with ⟨empty, _, rfl⟩ | ⟨_, _, _, _, _, _, _, ⟨⟩⟩
      exact ⟨[], .nil empty⟩
  | cons item items ih =>
      rcases fillVariadic_eq_success success with
        ⟨_, ⟨⟩, _⟩ | ⟨first, middle, others, closed, head, progress, tail, same⟩
      cases same
      rcases each before item middle head with ⟨front, taken⟩
      rcases ih tail with ⟨back, takenOthers⟩
      exact ⟨front ++ back, .cons closed progress taken takenOthers⟩

theorem takes_single {maxLength : Nat} {target value : Value} {part : Bytes} {left : List Bytes}
    (used : Nat) (read : target.decodePayload maxLength part = (value, none)) :
    ∃ pieces, Takes maxLength (single target) (single value) ⟨part :: left, used⟩ ⟨left, used + 1⟩
      pieces := by
  rcases Value.hasPayload_of_decode (Value.decode_of_decodePayload read) with
    ⟨form, written, length, back⟩
  have again := Value.decodePayload_of_decode back
  refine ⟨[⟨part, value, form⟩], ?_, rfl, rfl, rfl, ?_, ?_⟩
  · rw [List.forall_mem_singleton]
    exact ⟨⟨target, read⟩, written, length⟩
  · simp only [Argument.parts, written, List.map_cons, List.map_nil]
  · intro more used _
    simp only [fill, List.map_cons, List.map_nil, List.singleton_append, again]
    rfl

/-- Without parts an open-ended target is left as absent, and takes none. -/
theorem takes_absent {maxLength : Nat} {target : Argument} {parts : Parts}
    (openEnded : target.isOpenEnded = true) (empty : parts.left = [])
    (fills : ∀ used, target.fill maxLength ⟨[], used⟩ = ⟨absent, ⟨[], used⟩, none⟩) :
    Takes maxLength target absent parts parts [] := by
  refine ⟨by simp, rfl, rfl, openEnded.symm, rfl, ?_⟩
  intro more used length
  rw [empty, List.length_nil, List.length_eq_zero_iff] at length
  subst length
  exact fills used

/-- Every argument that was filled is written as the parts it has taken, each no longer than it was,
and is filled from these as before. -/
theorem takesWhatItFills (maxLength : Nat) (target : Argument) :
    target.TakesWhatItFills maxLength := by
  induction target with
  | single target =>
      rintro ⟨_, used⟩ filled after success
      rcases fill_single_eq_success success with ⟨part, left, value, rfl, read, rfl, rfl⟩
      exact takes_single used read
  | multi targets ih =>
      intro before filled after success
      rcases fill_multi_eq_success success with ⟨placed, items, body, rfl⟩
      rcases takesItems_of_fillItems ih body with ⟨pieces, takes⟩
      have alike := takes.openEnded
      refine ⟨pieces, takes.read, takes.taken, takes.singles, ?_, ?_, ?_⟩
      · exact anyOpenEnded_eq_of_forall₂ alike
      · have placedAgain : checkPlacement items = .ok () :=
          checkPlacement_of_forall₂ (alike.flip.imp fun _ _ => Eq.symm) placed
        rw [Argument.parts, placedAgain]
        exact takes.written
      · intro more used length
        rw [fill, placed]
        simp only [takes.again more used length, Filled.map]
  | absent =>
      intro before filled after success
      rcases fill_absent_eq_success success with ⟨empty, rfl, rfl⟩
      exact ⟨[], takes_absent rfl empty fun _ => rfl⟩
  | present content ih =>
      intro before filled after success
      rcases fill_present_eq_success success with ⟨empty, rfl, rfl⟩ | ⟨nonempty, inner, body, rfl⟩
      · exact ⟨[], takes_absent rfl empty fun _ => rfl⟩
      · rcases ih before inner after body with ⟨pieces, takes⟩
        refine ⟨pieces, takes.read, takes.taken, takes.singles, rfl, takes.written, ?_⟩
        intro more used length
        -- As many parts are left as before, so the option is present again.
        have left : (pieces.map Piece.form ++ more).length = before.left.length := by
          simp [takes.taken, length]
        have again : ¬(pieces.map Piece.form ++ more).isEmpty = true := by
          rw [List.isEmpty_iff, ← List.length_eq_zero_iff, left, List.length_eq_zero_iff]
          exact nonempty
        rw [fill, if_neg again, takes.again more used length]
        rfl
  | variadic old template _ ih =>
      intro before filled after success
      rcases fill_variadic_eq_success success with ⟨content, items, rfl, body, rfl⟩
      rcases takesAll_of_fillVariadic (ih content rfl) body with ⟨pieces, takes⟩
      refine ⟨pieces, takes.read, ?_, takes.singles, rfl, takes.written, ?_⟩
      · rw [takes.taken, takes.rest, List.append_nil]
      · intro more used length
        rw [takes.rest, List.length_nil, List.length_eq_zero_iff] at length
        rw [length, List.append_nil, fill, takes.again used]
        rfl

/-- The index of an argument matters to errors only. -/
theorem partsFrom_of_partsOfItems {index : Nat} {arguments : List Argument} {parts : List Bytes}
    (written : partsOfItems arguments = .ok parts) : partsFrom index arguments = .ok parts := by
  induction arguments generalizing index parts with
  | nil => exact written
  | cons argument arguments ih =>
      rcases partsOfItems_cons_eq_ok written with ⟨first, others, head, tail, rfl⟩
      rw [partsFrom, head, ih tail]
      rfl

end Argument

/-- Arguments that have been read are written as many parts, each no longer than the one
that its value was read from, and these are read as the same arguments.  So every part is
used once: the parts are what the single values, from left to right, were read from. -/
theorem serialize_deserialize {maxLength : Nat} {targets outputs : List Argument}
    {parts : List Bytes} (success : deserialize maxLength targets parts = (outputs, none)) :
    ∃ forms, serialize outputs = .ok forms ∧
      List.Forall₂ (fun form part => form.length ≤ part.length) forms parts ∧
      deserialize maxLength targets forms = (outputs, none) ∧
      List.Forall₂ (fun (value : Value) part =>
          ∃ target : Value, target.decodePayload maxLength part = (value, none))
        (Argument.singlesOfItems outputs) parts := by
  rcases deserialize_eq_success success with ⟨placed, used, filled⟩
  rcases Argument.takesItems_of_fillItems
    (fun target _ => Argument.takesWhatItFills maxLength target) filled with ⟨pieces, takes⟩
  have all : parts = pieces.map Piece.part := by
    have taken := takes.taken
    rwa [List.append_nil] at taken
  subst all
  have placedAgain : checkPlacement outputs = .ok () :=
    Argument.checkPlacement_of_forall₂ (takes.openEnded.flip.imp fun _ _ => Eq.symm) placed
  have again := takes.again [] 0 rfl
  rw [List.append_nil] at again
  refine ⟨pieces.map Piece.form, ?_, ?_, ?_, ?_⟩
  · rw [serialize, placedAgain]
    exact Argument.partsFrom_of_partsOfItems takes.written
  · rw [List.forall₂_map_left_iff, List.forall₂_map_right_iff, List.forall₂_same]
    exact fun piece mem => (takes.read piece mem).length
  · have same : Argument.fillFrom maxLength 0 targets ⟨pieces.map Piece.form, 0⟩ = _ :=
      (Argument.fillFrom_of_fillItems (congrArg Filled.error again)).trans again
    simp only [deserialize, placed, same]
  · rw [takes.singles, List.forall₂_map_left_iff, List.forall₂_map_right_iff, List.forall₂_same]
    exact fun piece mem => (takes.read piece mem).read

theorem serialize_deserialize_padded :
    let pair := fun flag (count : BitVec 16) =>
      Argument.multi [.single (.bool flag), .single (.int .u16 count)]
    let targets := [Argument.single (.natural 9),
      .multi [.single (.present (.text "")), .present (.variadic [] (some (pair false 0)))]]
    let outputs := [Argument.single (.natural 7),
      .multi [.single .absent,
        .present (.variadic [pair true 5, pair false 0] (some (pair false 0)))]]
    let parts := [[0, 0, 7], [0], [1], [0, 0, 5], [0], []]
    deserialize 0 targets parts = (outputs, none) ∧
      ∃ forms, serialize outputs = .ok forms ∧
        List.Forall₂ (fun form part => form.length ≤ part.length) forms parts ∧
        deserialize 0 targets forms = (outputs, none) ∧
        List.Forall₂ (fun (value : Value) part =>
            ∃ target : Value, target.decodePayload 0 part = (value, none))
          (Argument.singlesOfItems outputs) parts := by
  intro pair targets outputs parts
  have first : (pair false 0).fill 0 ⟨[[1], [0, 0, 5], [0], []], 2⟩ =
      ⟨pair true 5, ⟨[[0], []], 4⟩, none⟩ := by rfl
  have second : (pair false 0).fill 0 ⟨[[0], []], 4⟩ = ⟨pair false 0, ⟨[], 6⟩, none⟩ := by rfl
  have pairs : Argument.fillVariadic (pair false 0) ((pair false 0).fill 0)
      ⟨[[1], [0, 0, 5], [0], []], 2⟩ = ⟨[pair true 5, pair false 0], ⟨[], 6⟩, none⟩ := by
    rw [Argument.fillVariadic_of_success rfl first (by decide),
      Argument.fillVariadic_of_success rfl second (by decide), Argument.fillVariadic]
    rfl
  have option : (Argument.present (.variadic [] (some (pair false 0)))).fill 0
      ⟨[[1], [0, 0, 5], [0], []], 2⟩ =
        ⟨.present (.variadic [pair true 5, pair false 0] (some (pair false 0))), ⟨[], 6⟩, none⟩ := by
    rw [Argument.fill, if_neg (by decide), Argument.fill, pairs]
    rfl
  have word : (Argument.single (.present (.text ""))).fill 0
      ⟨[[0], [1], [0, 0, 5], [0], []], 1⟩ =
        ⟨.single .absent, ⟨[[1], [0, 0, 5], [0], []], 2⟩, none⟩ := by rfl
  have items : Argument.fillItems 0
      [.single (.present (.text "")), .present (.variadic [] (some (pair false 0)))]
      ⟨[[0], [1], [0, 0, 5], [0], []], 1⟩ =
        ⟨[.single .absent,
          .present (.variadic [pair true 5, pair false 0] (some (pair false 0)))], ⟨[], 6⟩, none⟩ := by
    simp only [Argument.fillItems, word, option, Filled.map]
  have number : (Argument.single (.natural 9)).fill 0 ⟨parts, 0⟩ =
      ⟨.single (.natural 7), ⟨[[0], [1], [0, 0, 5], [0], []], 1⟩, none⟩ := by rfl
  have placed {first second : Argument} (closed : first.isOpenEnded = false) :
      checkPlacement [first, second] = .ok () := by
    simp [checkPlacement, closed]
  have success : deserialize 0 targets parts = (outputs, none) := by
    rw [deserialize, placed rfl]
    simp only [targets, Argument.fillFrom, number]
    rw [Argument.fill, placed rfl]
    simp only [items, Filled.map]
    rfl
  exact ⟨success, serialize_deserialize success⟩

end ContractAbi
