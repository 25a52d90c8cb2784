import ContractAbi.Proofs.Arguments.Failure
import ContractAbi.Proofs.Arguments.NormalForm

/-!
# What a failure leaves behind

Reading the arguments of a call fails before any work, at one argument, or when all have
been filled and parts are left.  The arguments before the failing one are closed, so each
of them has taken a share of the parts that would fill it alone, and those behind it
have not been touched.  The cursor only ever moves over parts that are left, and every
round of a variadic argument that is not the last moves it.
-/

namespace ContractAbi

namespace Parts

variable {before middle after : Parts} {parts : List Bytes}

/-- The later cursor has used some more of the parts that were left. -/
def AdvancesTo (before after : Parts) : Prop :=
  ∃ taken, before.left = taken ++ after.left ∧ after.used = before.used + taken.length

theorem AdvancesTo.refl (cursor : Parts) : cursor.AdvancesTo cursor :=
  ⟨[], rfl, rfl⟩

theorem AdvancesTo.trans (first : before.AdvancesTo middle) (second : middle.AdvancesTo after) :
    before.AdvancesTo after := by
  rcases first with ⟨front, split, used⟩
  rcases second with ⟨back, splitLeft, usedLeft⟩
  refine ⟨front ++ back, ?_, ?_⟩
  · rw [split, splitLeft, List.append_assoc]
  · rw [usedLeft, used, List.length_append, Nat.add_assoc]

theorem AdvancesTo.length_le (advances : before.AdvancesTo after) :
    after.left.length ≤ before.left.length := by
  rcases advances with ⟨taken, split, _⟩
  rw [split, List.length_append]
  exact Nat.le_add_left _ _

theorem AdvancesTo.used_eq_iff (advances : before.AdvancesTo after) :
    after.used = before.used ↔ after.left.length = before.left.length := by
  rcases advances with ⟨taken, split, used⟩
  rw [used, split, List.length_append]
  omega

/-- The cursor stands in the list of parts, and has the rest of the list before it. -/
def Within (cursor : Parts) (parts : List Bytes) : Prop :=
  cursor.used ≤ parts.length ∧ cursor.left = parts.drop cursor.used

theorem Within.start (parts : List Bytes) : Within ⟨parts, 0⟩ parts :=
  ⟨Nat.zero_le _, rfl⟩

theorem Within.advance (within : before.Within parts) (advances : before.AdvancesTo after) :
    after.Within parts := by
  rcases within with ⟨small, rest⟩
  rcases advances with ⟨taken, split, used⟩
  have length := congrArg List.length (rest.symm.trans split)
  rw [List.length_drop, List.length_append] at length
  refine ⟨by omega, ?_⟩
  calc after.left
    _ = (taken ++ after.left).drop taken.length := List.drop_left.symm
    _ = (parts.drop before.used).drop taken.length := by rw [← split, rest]
    _ = parts.drop after.used := by rw [List.drop_drop, used]

end Parts

namespace Argument

/-- Whatever it fills, it moves the cursor over parts that are left. -/
def Advances {α : Type} (fillAt : Parts → Filled α) : Prop :=
  ∀ cursor : Parts, cursor.AdvancesTo (fillAt cursor).parts

theorem advances_fillItems {maxLength : Nat} {targets : List Argument}
    (each : ∀ target ∈ targets, Advances (target.fill maxLength)) :
    Advances (fillItems maxLength targets) := by
  intro cursor
  induction targets generalizing cursor with
  | nil => exact .refl cursor
  | cons target targets ih =>
      rw [List.forall_mem_cons] at each
      rw [fillItems]
      split
      · exact each.1 cursor
      · exact (each.1 cursor).trans (ih each.2 _)

theorem advances_fillVariadic {template : Argument} {fillItem : Parts → Filled Argument}
    (each : Advances fillItem) : Advances (fillVariadic template fillItem) := by
  intro cursor
  fun_induction fillVariadic template fillItem cursor with
  | case1 cursor empty => exact .refl cursor
  | case2 cursor nonempty openEnded => exact .refl cursor
  | case3 cursor nonempty closed item error failed => exact each cursor
  | case4 cursor nonempty closed item done progress ih => exact (each cursor).trans ih
  | case5 cursor nonempty closed item done stuck => exact each cursor

/-- No target moves the cursor back or beyond the last part. -/
theorem advances_fill (maxLength : Nat) (target : Argument) : Advances (target.fill maxLength) := by
  induction target with
  | single value =>
      intro cursor
      rw [fill]
      split
      · exact .refl cursor
      · rename_i part left same
        exact ⟨[part], same, rfl⟩
  | multi items ih =>
      intro cursor
      rw [fill]
      split
      · exact .refl cursor
      · exact advances_fillItems ih cursor
  | absent => exact .refl
  | present content ih =>
      intro cursor
      rw [fill]
      split
      · exact .refl cursor
      · exact ih cursor
  | variadic items template _ ih =>
      intro cursor
      cases template with
      | none => exact .refl cursor
      | some content =>
          rw [fill]
          exact advances_fillVariadic (ih content rfl) cursor

/-- The index of an argument matters to errors only. -/
theorem parts_fillFrom (maxLength index : Nat) (targets : List Argument) (cursor : Parts) :
    (fillFrom maxLength index targets cursor).parts =
      (fillItems maxLength targets cursor).parts := by
  induction targets generalizing index cursor with
  | nil => rfl
  | cons target targets ih =>
      rw [fillFrom, fillItems]
      split
      · rfl
      · exact ih _ _

/-- `LoopsTo template fillItem cursor rounds outcome` describes the loop of a variadic argument
round by round: it goes on as long as parts are left, and is left in a round that may not be
begun, that fails or that does not move the cursor. -/
inductive LoopsTo (template : Argument) (fillItem : Parts → Filled Argument) :
    Parts → Nat → Filled (List Argument) → Prop where
  | exhausted {cursor} : cursor.left = [] → LoopsTo template fillItem cursor 0 ⟨[], cursor, none⟩
  | openEnded {cursor} : cursor.left ≠ [] → template.isOpenEnded = true →
      LoopsTo template fillItem cursor 1 ⟨[], cursor, some (.notLast template.kind)⟩
  | failed {cursor item next error} : cursor.left ≠ [] → template.isOpenEnded = false →
      fillItem cursor = ⟨item, next, some error⟩ →
      LoopsTo template fillItem cursor 1 ⟨[], next, some error⟩
  | unmoved {cursor item next} : cursor.left ≠ [] → template.isOpenEnded = false →
      fillItem cursor = ⟨item, next, none⟩ → next.used = cursor.used →
      LoopsTo template fillItem cursor 1 ⟨[], next, some (.emptyVariadicItem cursor.used)⟩
  | item {cursor item next rounds outcome} : cursor.left ≠ [] → template.isOpenEnded = false →
      fillItem cursor = ⟨item, next, none⟩ → next.used ≠ cursor.used →
      LoopsTo template fillItem next rounds outcome →
      LoopsTo template fillItem cursor (rounds + 1) (outcome.map (item :: ·))

/-- The loop ends after at most as many rounds as parts are left. -/
theorem loopsTo_fillVariadic {template : Argument} {fillItem : Parts → Filled Argument}
    (each : Advances fillItem) (cursor : Parts) :
    ∃ rounds, rounds ≤ cursor.left.length ∧
      LoopsTo template fillItem cursor rounds (fillVariadic template fillItem cursor) := by
  fun_induction fillVariadic template fillItem cursor with
  | case1 cursor empty => exact ⟨0, Nat.zero_le _, .exhausted (List.isEmpty_iff.1 empty)⟩
  | case2 cursor nonempty openEnded =>
      rw [List.isEmpty_iff] at nonempty
      exact ⟨1, List.length_pos_iff.2 nonempty, .openEnded nonempty openEnded⟩
  | case3 cursor nonempty closed item error failed =>
      rw [List.isEmpty_iff] at nonempty
      rw [Bool.not_eq_true] at closed
      have head : fillItem cursor = ⟨item.target, item.parts, some error⟩ := by rw [← failed]
      exact ⟨1, List.length_pos_iff.2 nonempty, .failed nonempty closed head⟩
  | case4 cursor nonempty closed item done progress ih =>
      rw [List.isEmpty_iff] at nonempty
      rw [Bool.not_eq_true] at closed
      have head : fillItem cursor = ⟨item.target, item.parts, none⟩ := by rw [← done]
      have moved : item.parts.used ≠ cursor.used := by
        rw [Ne, (each cursor).used_eq_iff]
        exact Nat.ne_of_lt progress
      rcases ih with ⟨rounds, few, loops⟩
      exact ⟨rounds + 1, by omega, .item nonempty closed head moved loops⟩
  | case5 cursor nonempty closed item done stuck =>
      rw [List.isEmpty_iff] at nonempty
      rw [Bool.not_eq_true] at closed
      have head : fillItem cursor = ⟨item.target, item.parts, none⟩ := by rw [← done]
      have unmoved : item.parts.used = cursor.used := by
        rw [(each cursor).used_eq_iff]
        exact Nat.le_antisymm (each cursor).length_le (Nat.le_of_not_lt stuck)
      exact ⟨1, List.length_pos_iff.2 nonempty, .unmoved nonempty closed head unmoved⟩

/-- What is filled depends on the parts that are taken.  They fill it alike wherever they stand,
if what is open-ended is left with parts there as it was here. -/
def FillsElsewhere {α : Type} (fillAt : Parts → Filled α) (openEnded : Bool) : Prop :=
  ∀ before filled after, fillAt before = ⟨filled, after, none⟩ →
    ∃ taken, before.left = taken ++ after.left ∧
      ∀ more used, (openEnded = true → (more = [] ↔ after.left = [])) →
        fillAt ⟨taken ++ more, used⟩ = ⟨filled, ⟨more, used + taken.length⟩, none⟩

/-- A sequence depends on the parts it takes if each target does; the last alone may be
open-ended. -/
theorem fillItems_elsewhere {maxLength : Nat} {targets : List Argument}
    (each : ∀ target ∈ targets, FillsElsewhere (target.fill maxLength) target.isOpenEnded) :
    FillsElsewhere (fillItems maxLength targets) (anyOpenEnded targets) := by
  intro before filled after success
  induction targets generalizing before filled with
  | nil =>
      cases success
      exact ⟨[], rfl, fun _ _ _ => rfl⟩
  | cons target targets ih =>
      rw [List.forall_mem_cons] at each
      rcases fillItems_cons_eq_success success with ⟨first, middle, others, head, tail, rfl⟩
      rcases each.1 before first middle head with ⟨front, split, headAgain⟩
      rcases ih each.2 middle others tail with ⟨back, splitMiddle, tailAgain⟩
      refine ⟨front ++ back, by rw [split, splitMiddle, List.append_assoc], ?_⟩
      intro more used alike
      rw [anyOpenEnded, Bool.or_eq_true] at alike
      have headAlike : target.isOpenEnded = true → (back ++ more = [] ↔ middle.left = []) := by
        intro openEnded
        rw [splitMiddle, List.append_eq_nil_iff, List.append_eq_nil_iff, alike (Or.inl openEnded)]
      rw [List.append_assoc, fillItems, headAgain _ used headAlike]
      simp only [tailAgain more _ fun openEnded => alike (Or.inr openEnded), Filled.map,
        List.length_append, Nat.add_assoc]

/-- So does a repetition, which ends where the parts do. -/
theorem fillVariadic_elsewhere {template : Argument} {fillItem : Parts → Filled Argument}
    (each : FillsElsewhere fillItem template.isOpenEnded) :
    FillsElsewhere (fillVariadic template fillItem) true := by
  intro before items after success
  induction items generalizing before with
  | nil =>
      rcases fillVariadic_eq_success success with ⟨empty, _, rfl⟩ | ⟨_, _, _, _, _, _, _, ⟨⟩⟩
      refine ⟨[], rfl, ?_⟩
      intro more used alike
      rw [(alike rfl).2 empty, fillVariadic]
      rfl
  | cons item items ih =>
      rcases fillVariadic_eq_success success with
        ⟨_, ⟨⟩, _⟩ | ⟨first, middle, others, closed, head, progress, tail, same⟩
      cases same
      rcases each before item middle head with ⟨front, split, headAgain⟩
      rcases ih middle tail with ⟨back, splitMiddle, tailAgain⟩
      refine ⟨front ++ back, by rw [split, splitMiddle, List.append_assoc], ?_⟩
      intro more used alike
      have again := headAgain (back ++ more) used fun openEnded => by
        rw [closed] at openEnded
        cases openEnded
      have progressAgain : (back ++ more).length < (front ++ (back ++ more)).length := by
        rw [split] at progress
        simp only [List.length_append] at progress ⊢
        omega
      rw [List.append_assoc, fillVariadic_of_success closed again progressAgain,
        tailAgain more _ alike]
      simp only [Filled.map, List.length_append, Nat.add_assoc]

/-- The parts that a target takes fill it alike in front of any others.  What is open-ended looks at
whether parts are left, and at nothing else of them. -/
theorem fill_elsewhere (maxLength : Nat) (target : Argument) :
    FillsElsewhere (target.fill maxLength) target.isOpenEnded := by
  induction target with
  | single target =>
      intro before filled after success
      rcases fill_single_eq_success success with ⟨part, left, value, same, read, rfl, rfl⟩
      refine ⟨[part], same, ?_⟩
      intro more used _
      simp only [fill, List.singleton_append, read]
      rfl
  | multi targets ih =>
      intro before filled after success
      rcases fill_multi_eq_success success with ⟨placed, items, body, rfl⟩
      rcases fillItems_elsewhere ih before items after body with ⟨taken, split, again⟩
      refine ⟨taken, split, ?_⟩
      intro more used alike
      rw [fill, placed]
      simp only [again more used alike, Filled.map]
  | absent =>
      intro before filled after success
      rcases fill_absent_eq_success success with ⟨empty, rfl, rfl⟩
      refine ⟨[], rfl, ?_⟩
      intro more used alike
      rw [(alike rfl).2 empty]
      rfl
  | present content ih =>
      intro before filled after success
      rcases fill_present_eq_success success with ⟨empty, rfl, rfl⟩ | ⟨nonempty, inner, body, rfl⟩
      · refine ⟨[], rfl, ?_⟩
        intro more used alike
        rw [(alike rfl).2 empty]
        rfl
      · rcases ih before inner after body with ⟨taken, split, again⟩
        refine ⟨taken, split, ?_⟩
        intro more used alike
        -- Parts are there again, so the option is present again.
        have left : ¬(taken ++ more).isEmpty = true := by
          rw [List.isEmpty_iff, List.append_eq_nil_iff, alike rfl, ← List.append_eq_nil_iff, ← split]
          exact nonempty
        rw [fill, if_neg left, again more used fun _ => alike rfl]
        rfl
  | variadic old template _ ih =>
      intro before filled after success
      rcases fill_variadic_eq_success success with ⟨content, items, rfl, body, rfl⟩
      rcases fillVariadic_elsewhere (ih content rfl) before items after body with
        ⟨taken, split, again⟩
      refine ⟨taken, split, ?_⟩
      intro more used alike
      rw [fill, again more used alike]
      rfl

/-- The error of a call's arguments is that of one of them, with its index.  Those before it
have been filled, and those behind it are left as they were. -/
theorem fillFrom_eq_failure {maxLength index : Nat} {targets outputs : List Argument}
    {before after : Parts} {error : ArgumentError}
    (failed : fillFrom maxLength index targets before = ⟨outputs, after, some error⟩) :
    ∃ front target back filled middle output source,
      targets = front ++ target :: back ∧ outputs = filled ++ output :: back ∧
        error = .argument (index + front.length) source ∧
        fillItems maxLength front before = ⟨filled, middle, none⟩ ∧
        target.fill maxLength middle = ⟨output, after, some source⟩ := by
  induction targets generalizing index before outputs with
  | nil => cases failed
  | cons target targets ih =>
      rw [fillFrom] at failed
      rcases head : target.fill maxLength before with ⟨first, next, _ | source⟩
      · rcases tail : fillFrom maxLength (index + 1) targets next with ⟨others, last, refused⟩
        simp only [head, tail, Filled.map, Filled.mk.injEq] at failed
        rcases failed with ⟨rfl, rfl, rfl⟩
        rcases ih tail with
          ⟨front, failing, back, filled, middle, output, source, rfl, rfl, rfl, body, stopped⟩
        refine ⟨target :: front, failing, back, first :: filled, middle, output, source, rfl, rfl,
          ?_, ?_, stopped⟩
        · rw [List.length_cons, Nat.add_right_comm, Nat.add_assoc]
        · simp only [fillItems, head, body, Filled.map]
      · simp only [head, Filled.mk.injEq, Option.some.injEq] at failed
        rcases failed with ⟨rfl, rfl, rfl⟩
        exact ⟨[], target, targets, [], before, first, source, rfl, rfl, rfl, rfl, head⟩

end Argument

section Call

variable {maxLength : Nat} {targets outputs : List Argument} {parts : List Bytes}

/-- With targets in an allowed order that can all be filled, reading fails for parts left over
only. -/
theorem deserialize_of_fillItems {left : List Bytes} {used : Nat}
    (placed : checkPlacement targets = .ok ())
    (filled : Argument.fillItems maxLength targets ⟨parts, 0⟩ = ⟨outputs, ⟨left, used⟩, none⟩) :
    deserialize maxLength targets parts =
      (outputs, if left = [] then none else some (.tooManyParts left.length)) := by
  have body : Argument.fillFrom maxLength 0 targets ⟨parts, 0⟩ = ⟨outputs, ⟨left, used⟩, none⟩ :=
    (Argument.fillFrom_of_fillItems (congrArg Filled.error filled)).trans filled
  simp only [deserialize, placed, body]
  cases left with
  | nil => rfl
  | cons part left => rfl

/-- A target of a call, the parts that it has taken, and what it holds since. -/
structure Share where
  target : Argument
  taken : List Bytes
  output : Argument

/-- The target alone would hold the same after reading these parts alone. -/
def Share.IsFair (maxLength : Nat) (share : Share) : Prop :=
  deserialize maxLength [share.target] share.taken = ([share.output], none)

theorem checkPlacement_of_closed (closed : ∀ target ∈ targets, target.isOpenEnded = false) :
    checkPlacement targets = .ok () :=
  checkPlacement_eq_ok_iff.2 fun target mem => closed target (List.dropLast_subset _ mem)

/-- Closed targets are filled alike by the parts that they have taken. -/
theorem deserialize_taken {before after : Parts}
    (closed : ∀ target ∈ targets, target.isOpenEnded = false)
    (success : Argument.fillItems maxLength targets before = ⟨outputs, after, none⟩) :
    ∃ taken, before.left = taken ++ after.left ∧ after.used = before.used + taken.length ∧
      deserialize maxLength targets taken = (outputs, none) := by
  rcases Argument.fillItems_elsewhere (fun target _ => Argument.fill_elsewhere maxLength target)
    before outputs after success with ⟨taken, split, again⟩
  have anyWhere (more : List Bytes) (used : Nat) := again more used fun openEnded => by
    rcases Argument.anyOpenEnded_eq_true_iff.1 openEnded with ⟨target, mem, openEnded⟩
    rw [closed target mem] at openEnded
    cases openEnded
  refine ⟨taken, split, ?_, ?_⟩
  · have here := anyWhere after.left before.used
    rw [← split, success, Filled.mk.injEq] at here
    exact congrArg Parts.used here.2.1
  · have alone := anyWhere [] 0
    rw [List.append_nil] at alone
    exact deserialize_of_fillItems (checkPlacement_of_closed closed) alone

/-- Closed targets share the parts among them, and each is filled from its share alone. -/
theorem shares_of_fillItems {before after : Parts}
    (closed : ∀ target ∈ targets, target.isOpenEnded = false)
    (success : Argument.fillItems maxLength targets before = ⟨outputs, after, none⟩) :
    ∃ shares : List Share, targets = shares.map Share.target ∧ outputs = shares.map Share.output ∧
      before.left = shares.flatMap Share.taken ++ after.left ∧
      ∀ share ∈ shares, share.IsFair maxLength := by
  induction targets generalizing before outputs with
  | nil =>
      cases success
      exact ⟨[], rfl, rfl, rfl, List.forall_mem_nil _⟩
  | cons target targets ih =>
      rw [List.forall_mem_cons] at closed
      rcases Argument.fillItems_cons_eq_success success with
        ⟨output, middle, others, head, tail, rfl⟩
      have single : Argument.fillItems maxLength [target] before = ⟨[output], middle, none⟩ := by
        simp only [Argument.fillItems, head, Filled.map]
      rcases deserialize_taken (List.forall_mem_singleton.2 closed.1) single with
        ⟨taken, split, _, alone⟩
      rcases ih closed.2 tail with ⟨shares, rfl, rfl, splitMiddle, fair⟩
      refine ⟨⟨target, taken, output⟩ :: shares, rfl, rfl, ?_, List.forall_mem_cons.2 ⟨alone, fair⟩⟩
      rw [List.flatMap_cons, List.append_assoc, split, splitMiddle]

/-- `Footprint maxLength parts targets outputs error` says what has become of the targets when
reading them from the parts has failed. -/
inductive Footprint (maxLength : Nat) (parts : List Bytes) :
    List Argument → List Argument → ArgumentError → Prop where
  /-- The check of the call's own sequence comes before any work. -/
  | misplaced {targets kind} : checkPlacement targets = .error (.notLast kind) →
      Footprint maxLength parts targets targets (.notLast kind)
  /-- The targets before the failing one hold what they hold when they are read from their
  parts alone, together or each for itself; those behind it are unchanged. -/
  | stopped {shares : List Share} {target back left output last source} :
      parts = shares.flatMap Share.taken ++ left →
      (∀ share ∈ shares, share.IsFair maxLength) →
      deserialize maxLength (shares.map Share.target) (shares.flatMap Share.taken) =
        (shares.map Share.output, none) →
      target.fill maxLength ⟨left, (shares.flatMap Share.taken).length⟩ =
        ⟨output, last, some source⟩ →
      Footprint maxLength parts (shares.map Share.target ++ target :: back)
        (shares.map Share.output ++ output :: back) (.argument shares.length source)
  /-- All targets have been filled.  Each part that was taken has been read into one of their
  single values, and of the others nothing has been noticed but that there are some. -/
  | unused {targets outputs taken left} : parts = taken ++ left → left ≠ [] →
      Argument.fillItems maxLength targets ⟨parts, 0⟩ = ⟨outputs, ⟨left, taken.length⟩, none⟩ →
      List.Forall₂ (fun (value : Value) part =>
          ∃ target : Value, target.decodePayload maxLength part = (value, none))
        (Argument.singlesOfItems outputs) taken →
      (∀ others, others ≠ [] → deserialize maxLength targets (taken ++ others) =
        (outputs, some (.tooManyParts others.length))) →
      Footprint maxLength parts targets outputs (.tooManyParts left.length)

theorem footprint_of_fillFrom_failure (placed : checkPlacement targets = .ok ()) {after : Parts}
    {error : ArgumentError}
    (failed : Argument.fillFrom maxLength 0 targets ⟨parts, 0⟩ = ⟨outputs, after, some error⟩) :
    Footprint maxLength parts targets outputs error := by
  rcases Argument.fillFrom_eq_failure failed with
    ⟨front, target, back, filled, middle, output, source, rfl, rfl, rfl, body, stopped⟩
  have closed : ∀ target ∈ front, target.isOpenEnded = false := by
    intro argument mem
    apply checkPlacement_eq_ok_iff.1 placed
    rw [List.dropLast_append_of_ne_nil (List.cons_ne_nil _ _)]
    exact List.mem_append_left _ mem
  rcases deserialize_taken closed body with ⟨taken, split, used, together⟩
  rcases shares_of_fillItems closed body with ⟨shares, rfl, rfl, splitShares, fair⟩
  have same : taken = shares.flatMap Share.taken :=
    List.append_cancel_right (split.symm.trans splitShares)
  subst same
  rw [Nat.zero_add, List.length_map]
  apply Footprint.stopped split fair together
  rwa [← Nat.zero_add (shares.flatMap Share.taken).length, ← used]

/-- Once all targets are filled, the parts left over are the only failure. -/
theorem footprint_of_unused (placed : checkPlacement targets = .ok ()) {left : List Bytes}
    {used : Nat} (nonempty : left ≠ [])
    (filled : Argument.fillFrom maxLength 0 targets ⟨parts, 0⟩ = ⟨outputs, ⟨left, used⟩, none⟩) :
    Footprint maxLength parts targets outputs (.tooManyParts left.length) := by
  have body := Argument.fillItems_of_fillFrom filled
  rcases Argument.takesItems_of_fillItems
    (fun target _ => Argument.takesWhatItFills maxLength target) body with ⟨pieces, takes⟩
  rcases Argument.fillItems_elsewhere (fun target _ => Argument.fill_elsewhere maxLength target)
    _ _ _ body with ⟨taken, split, again⟩
  have same : taken = pieces.map Piece.part :=
    List.append_cancel_right (split.symm.trans takes.taken)
  have followed (others : List Bytes) (follow : others ≠ []) := again others 0 fun _ =>
    iff_of_false follow nonempty
  apply Footprint.unused split nonempty
  · have here := followed left nonempty
    rw [Nat.zero_add] at here
    exact split ▸ here
  · rw [same, takes.singles, List.forall₂_map_left_iff, List.forall₂_map_right_iff,
      List.forall₂_same]
    exact fun piece mem => (takes.read piece mem).read
  · intro others follow
    rw [deserialize_of_fillItems placed (followed others follow), if_neg follow]

theorem kind_of_checkPlacement {error : ArgumentError}
    (misplaced : checkPlacement targets = .error error) : ∃ kind, error = .notLast kind := by
  rw [checkPlacement] at misplaced
  split at misplaced
  · cases misplaced
    exact ⟨_, rfl⟩
  · cases misplaced

/-- Reading the parts of a call fails before any work, at one of its arguments, or since parts
are left, and each time with this footprint. -/
theorem footprint_of_deserialize {error : ArgumentError}
    (failed : deserialize maxLength targets parts = (outputs, some error)) :
    Footprint maxLength parts targets outputs error := by
  rw [deserialize] at failed
  split at failed
  · rename_i source misplaced
    cases failed
    rcases kind_of_checkPlacement misplaced with ⟨kind, rfl⟩
    exact .misplaced misplaced
  · rename_i placed
    rcases body : Argument.fillFrom maxLength 0 targets ⟨parts, 0⟩ with
      ⟨found, ⟨left, used⟩, stopped⟩
    simp only [body] at failed
    split at failed
    · cases failed
      exact footprint_of_fillFrom_failure placed body
    · cases failed
    · rename_i nonempty
      cases failed
      exact footprint_of_unused placed (by simpa using nonempty) body

/-- A text that cannot be split is refused because a piece is not hexadecimal. -/
theorem invalidHex_of_decodePieces {index : Nat} {pieces : List (List Char)}
    {error : ArgumentError} (failed : decodePieces index pieces = .error error) :
    ∃ part fault, error = .invalidHex part fault := by
  induction pieces generalizing index with
  | nil => cases failed
  | cons piece pieces ih =>
      rw [decodePieces] at failed
      split at failed
      · cases failed
        exact ⟨_, _, rfl⟩
      · cases tail : decodePieces (index + 1) pieces with
        | error source =>
            rw [tail] at failed
            cases failed
            exact ih tail
        | ok parts =>
            rw [tail] at failed
            cases failed

/-- A call that cannot be read leaves a footprint that its error tells.  If its text cannot be
split, or an open-ended argument is misplaced among its own, nothing has changed; if one
argument fails, those before it hold what they would hold alone, and those behind it
are unchanged; if parts are left over, all arguments have been filled without them.
The cursor never leaves the list of parts, and each variadic argument ends its loop. -/
theorem deserialize_footprint (maxLength : Nat) :
    (∀ separator targets text outputs error,
        deserializeText separator maxLength targets text = (outputs, some error) →
        (outputs = targets ∧ splitParts separator text = .error error ∧
            ∃ part fault, error = .invalidHex part fault) ∨
          ∃ parts, splitParts separator text = .ok parts ∧
            Footprint maxLength parts targets outputs error) ∧
      (∀ targets parts outputs error, deserialize maxLength targets parts = (outputs, some error) →
        Footprint maxLength parts targets outputs error) ∧
      (∀ targets parts, (Argument.fillFrom maxLength 0 targets ⟨parts, 0⟩).parts.Within parts) ∧
      (∀ (target : Argument) parts (cursor : Parts), cursor.Within parts →
        (target.fill maxLength cursor).parts.Within parts) ∧
      ∀ (old : List Argument) (template : Argument) (cursor : Parts), ∃ rounds outcome,
        rounds ≤ cursor.left.length ∧
          Argument.LoopsTo template (template.fill maxLength) cursor rounds outcome ∧
          (Argument.variadic old (some template)).fill maxLength cursor =
            outcome.map (.variadic · (some template)) := by
  refine ⟨?_, fun _ _ _ _ => footprint_of_deserialize, ?_, ?_, ?_⟩
  · intro separator targets text outputs error failed
    rw [deserializeText] at failed
    split at failed
    · rename_i source unsplit
      cases failed
      exact Or.inl ⟨rfl, unsplit, invalidHex_of_decodePieces unsplit⟩
    · rename_i parts split
      exact Or.inr ⟨parts, split, footprint_of_deserialize failed⟩
  · intro targets parts
    have advances : Argument.Advances (Argument.fillItems maxLength targets) :=
      Argument.advances_fillItems fun target _ => Argument.advances_fill maxLength target
    rw [Argument.parts_fillFrom]
    exact (Parts.Within.start parts).advance (advances ⟨parts, 0⟩)
  · intro target parts cursor within
    exact within.advance (Argument.advances_fill maxLength target cursor)
  · intro old template cursor
    rcases Argument.loopsTo_fillVariadic (Argument.advances_fill maxLength template) cursor with
      ⟨rounds, few, loops⟩
    exact ⟨rounds, _, few, loops, by rw [Argument.fill]⟩

/-- A flag that is none leaves a pair half filled; a third part is not looked at. -/
theorem deserialize_footprint_pair :
    let byte (value : BitVec 8) := Argument.single (.int .u8 value)
    let pair (value : BitVec 8) := Argument.multi [byte value, .single (.bool true)]
    let tail := Argument.variadic [byte 3] (some (byte 0))
    let notFlag := ArgumentError.argument 1 (.codec (.invalidBool 2))
    deserialize 0 [byte 0, pair 0, tail] [[5], [1], [2], [9]] =
        ([byte 5, pair 1, tail], some notFlag) ∧
      Footprint 0 [[5], [1], [2], [9]] [byte 0, pair 0, tail] [byte 5, pair 1, tail] notFlag ∧
      deserialize 0 [byte 0, .present (byte 0)] [[7], [8], [9]] =
        ([byte 7, .present (byte 8)], some (.tooManyParts 1)) ∧
      Footprint 0 [[7], [8], [9]] [byte 0, .present (byte 0)] [byte 7, .present (byte 8)]
        (.tooManyParts 1) := by
  intro byte pair tail notFlag
  rcases deserialize_footprint 0 with ⟨_, footprint, _⟩
  have stopped : deserialize 0 [byte 0, pair 0, tail] [[5], [1], [2], [9]] =
      ([byte 5, pair 1, tail], some notFlag) := by rfl
  have unused : deserialize 0 [byte 0, .present (byte 0)] [[7], [8], [9]] =
      ([byte 7, .present (byte 8)], some (.tooManyParts 1)) := by rfl
  exact ⟨stopped, footprint _ _ _ _ stopped, unused, footprint _ _ _ _ unused⟩

end Call

end ContractAbi
