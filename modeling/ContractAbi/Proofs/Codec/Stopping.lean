import ContractAbi.Proofs.Codec.Failure

/-!
# Where decoding stops

A decoder fills in its target from left to right and stops at the first node that it
cannot fill in.  Its error names the fields on the way to this node.  On that way the
fields before hold what they decode to, the fields behind are as they were, and a list
keeps the items that are complete.  The node itself keeps what it held.
-/

namespace ContractAbi

theorem Read.fill_eq_failure {α β : Type} {read : Read α} {target : β} {build : α → β}
    {error : CodecError} (failed : (read.fill target build).error = some error) :
    read.result = .error error ∧ (read.fill target build).target = target := by
  rcases read with ⟨other | value, rest⟩
  · cases failed
    exact ⟨rfl, rfl⟩
  · cases failed

namespace Value

/-- The names lead from a target through its fields to a node, the outermost name first.
Options have no names; the items of a list are decoded into its template. -/
inductive Leads : Value → List String → Value → Prop where
  | here (node) : Leads node [] node
  | present {content names node} : Leads content names node →
      Leads (present content) names node
  | template {template names node} (items) : Leads template names node →
      Leads (outputList items (some template)) names node
  | struct {fields name target names node} : (name, target) ∈ fields →
      Leads target names node → Leads (struct fields) (name :: names) node
  | enum {fields name target names node} (discriminant) : (name, target) ∈ fields →
      Leads target names node → Leads (enum discriminant fields) (name :: names) node

/-- Whether a value has a content of its own and no values inside. -/
def isLeaf : Value → Bool
  | bool _ | int _ _ | natural _ | integer _ | text _ | bytes _ | address _ => true
  | _ => false

/-- The node fails by itself, before any value inside it is begun. -/
inductive Refuses (maxLength : Nat) : Value → Context → Bytes → CodecError → Prop where
  /-- The bytes of a leaf are missing or wrong. -/
  | leaf {node context input error} : node.isLeaf = true →
      (node.decode maxLength context input).error = some error → error.path = [] →
      Refuses maxLength node context input error
  /-- The first byte of an option is missing. -/
  | absent : Refuses maxLength absent .nested [] (.shortRead 1 0)
  | present (content) : Refuses maxLength (present content) .nested [] (.shortRead 1 0)
  /-- The option is present but has no target for its content. -/
  | content {presence} (context rest) : presence ≠ 0 →
      Refuses maxLength Value.absent context (presence :: rest) .missingOptionTarget
  /-- The list cannot make new items. -/
  | list (items context input) : Refuses maxLength (list items) context input .missingTemplate
  | template (items context input) :
      Refuses maxLength (outputList items none) context input .missingTemplate
  /-- The number of the items is missing or too large. -/
  | count {input error} (items template) :
      (Bytes.readBoundedLength maxLength input).result = .error error → error.path = [] →
      Refuses maxLength (outputList items (some template)) .nested input error
  /-- The discriminant is missing. -/
  | enum (discriminant fields) :
      Refuses maxLength (enum discriminant fields) .nested [] (.shortRead 1 0)

/-- `target.Stops maxLength context input left error node` says how decoding the input ends
at a node that fails, and what is left of the target. -/
inductive Stops (maxLength : Nat) :
    Value → Context → Bytes → Value → CodecError → Value → Prop where
  /-- The failing node is left as it was. -/
  | here {node context input error} : node.Refuses maxLength context input error →
      Stops maxLength node context input node error node
  | present {content presence rest left error node} (context) : presence ≠ 0 →
      Stops maxLength content .nested rest left error node →
      Stops maxLength (present content) context (presence :: rest) (present left) error node
  /-- The list holds the items before the failing one, which is dropped. -/
  | item {input start middle template count done dropped error node} (old) :
      Bytes.readBoundedLength maxLength input = ⟨.ok count, start⟩ → done.length < count →
      decodeItems (template.decode maxLength .nested) done.length start = ⟨done, middle, none⟩ →
      Stops maxLength template .nested middle dropped error node →
      Stops maxLength (outputList old (some template)) .nested input
        (outputList done (some template)) error node
  | itemToEnd {input middle template done dropped error node} (old) :
      decodeItems (template.decode maxLength .nested) done.length input = ⟨done, middle, none⟩ →
      Stops maxLength template .nested middle dropped error node →
      Stops maxLength (outputList old (some template)) .topLevel input
        (outputList done (some template)) error node
  /-- The fields before the failing one are decoded, and those behind it are untouched. -/
  | struct {input middle front name target back done left error node} (context) :
      decodeFields maxLength front input = ⟨done, middle, none⟩ →
      Stops maxLength target .nested middle left error node →
      Stops maxLength (struct (front ++ (name, target) :: back)) context input
        (struct (done ++ (name, left) :: back)) (.field name error) node
  | enum {input middle front name target back done left error node}
      (context old discriminant) :
      decodeFields maxLength front input = ⟨done, middle, none⟩ →
      Stops maxLength target .nested middle left error node →
      Stops maxLength (enum old (front ++ (name, target) :: back)) context
        (discriminant :: input) (enum discriminant (done ++ (name, left) :: back))
        (.field name error) node

theorem Refuses.path_eq_nil {maxLength : Nat} {node : Value} {context : Context} {input : Bytes}
    {error : CodecError} (refuses : node.Refuses maxLength context input error) :
    error.path = [] := by
  cases refuses with
  | leaf _ _ bare => exact bare
  | count _ _ _ bare => exact bare
  | _ => rfl

section Stops

variable {maxLength : Nat} {target node left : Value} {context : Context} {input : Bytes}
  {error : CodecError}

/-- The path of the error leads to the failing node. -/
theorem Stops.leads (stops : target.Stops maxLength context input left error node) :
    target.Leads error.path node := by
  induction stops with
  | here refuses =>
      rw [refuses.path_eq_nil]
      exact .here _
  | present _ _ _ ih => exact .present ih
  | item old _ _ _ _ ih => exact .template old ih
  | itemToEnd old _ _ ih => exact .template old ih
  | struct _ _ _ ih => exact .struct (List.mem_append_right _ List.mem_cons_self) ih
  | enum _ old _ _ _ ih => exact .enum old (List.mem_append_right _ List.mem_cons_self) ih

/-- The root of the error is the failure of the node itself. -/
theorem Stops.refuses (stops : target.Stops maxLength context input left error node) :
    ∃ nodeContext nodeInput, node.Refuses maxLength nodeContext nodeInput error.root := by
  induction stops with
  | here refuses =>
      rw [CodecError.root_eq_self refuses.path_eq_nil]
      exact ⟨_, _, refuses⟩
  | present _ _ _ ih => exact ih
  | item _ _ _ _ _ ih => exact ih
  | itemToEnd _ _ _ ih => exact ih
  | struct _ _ _ ih => exact ih
  | enum _ _ _ _ _ ih => exact ih

end Stops

section Sequences

/-- The items before the one that fails are kept, and it fails with the error of the list. -/
theorem decodeItems_eq_failure {decodeItem : Bytes → Decoded Value} {count : Nat}
    {input : Bytes} {error : CodecError}
    (failed : (decodeItems decodeItem count input).error = some error) :
    ∃ done middle, done.length < count ∧
      decodeItems decodeItem done.length input = ⟨done, middle, none⟩ ∧
      (decodeItem middle).error = some error ∧
      (decodeItems decodeItem count input).target = done := by
  induction count generalizing input with
  | zero => cases failed
  | succ count ih =>
      cases failure : (decodeItem input).error with
      | some other =>
          rw [decodeItems_succ_of_error failure] at failed ⊢
          cases failed
          exact ⟨[], input, Nat.succ_pos count, rfl, failure, rfl⟩
      | none =>
          rw [decodeItems_succ_of_success failure] at failed ⊢
          rcases ih failed with ⟨done, middle, fewer, before, stopped, left⟩
          refine ⟨(decodeItem input).target :: done, middle, Nat.succ_lt_succ fewer, ?_, stopped,
            ?_⟩
          · rw [List.length_cons, decodeItems_succ_of_success failure, before]
            rfl
          · rw [Decoded.map, left]

/-- So it is without a count. -/
theorem decodeToEnd_eq_failure {decodeItem : Bytes → Decoded Value} {input : Bytes}
    {error : CodecError} (failed : (decodeToEnd decodeItem input).error = some error) :
    ∃ done middle, decodeItems decodeItem done.length input = ⟨done, middle, none⟩ ∧
      (decodeItem middle).error = some error ∧
      (decodeToEnd decodeItem input).target = done := by
  fun_induction decodeToEnd decodeItem input with
  | case1 input empty => cases failed
  | case2 input nonempty first other failure =>
      cases failed
      exact ⟨[], input, rfl, failure, rfl⟩
  | case3 input nonempty first done progress ih =>
      rcases ih failed with ⟨others, middle, before, stopped, left⟩
      refine ⟨first.target :: others, middle, ?_, stopped, ?_⟩
      · rw [List.length_cons, decodeItems_succ_of_success done, before]
        rfl
      · rw [Decoded.map, left]
  | case4 input nonempty first done stuck => cases failed

/-- The fields before the one that fails are read, those behind it are as before, and its name is
put in front of the error. -/
theorem decodeFields_eq_failure {maxLength : Nat} {fields : Fields} {input : Bytes}
    {error : CodecError} (failed : (decodeFields maxLength fields input).error = some error) :
    ∃ front name target back done middle source,
      fields = front ++ (name, target) :: back ∧
      decodeFields maxLength front input = ⟨done, middle, none⟩ ∧
      (target.decode maxLength .nested middle).error = some source ∧
      error = .field name source ∧
      (decodeFields maxLength fields input).target =
        done ++ (name, (target.decode maxLength .nested middle).target) :: back := by
  induction fields generalizing input with
  | nil => cases failed
  | cons field fields ih =>
      rcases field with ⟨name, target⟩
      cases failure : (target.decode maxLength .nested input).error with
      | some source =>
          rw [decodeFields_cons_of_error failure] at failed ⊢
          cases failed
          exact ⟨[], name, target, fields, [], input, source, rfl, rfl, failure, rfl, rfl⟩
      | none =>
          rw [decodeFields_cons_of_success failure] at failed ⊢
          rcases ih failed with
            ⟨front, other, inner, back, done, middle, source, rfl, before, stopped, rfl, left⟩
          refine ⟨(name, target) :: front, other, inner, back,
            (name, (target.decode maxLength .nested input).target) :: done, middle, source, rfl, ?_,
            stopped, rfl, ?_⟩
          · rw [decodeFields_cons_of_success failure, before]
            rfl
          · rw [Decoded.map, left]
            rfl

end Sequences

/-- Where the decoder of the target fails, it stops at one of the target's nodes. -/
def StopsOnFailure (maxLength : Nat) (target : Value) (context : Context) (input : Bytes) : Prop :=
  ∀ error, (target.decode maxLength context input).error = some error →
    ∃ node, target.Stops maxLength context input (target.decode maxLength context input).target
      error node

section Nodes

variable {maxLength : Nat} {target : Value} {context : Context} {input : Bytes}

theorem stopsOnFailure_of_success (done : (target.decode maxLength context input).error = none) :
    target.StopsOnFailure maxLength context input := by
  intro error failed
  rw [done] at failed
  cases failed

theorem stopsOnFailure_of_refuses {rest : Bytes} {error : CodecError}
    (refused : target.decode maxLength context input = ⟨target, rest, some error⟩)
    (refuses : target.Refuses maxLength context input error) :
    target.StopsOnFailure maxLength context input := by
  intro other failed
  rw [refused] at failed ⊢
  cases failed
  exact ⟨target, .here refuses⟩

theorem stopsOnFailure_of_read {α : Type} {read : Read α} {build : α → Value}
    (leaf : target.isLeaf = true)
    (decodes : target.decode maxLength context input = read.fill target build)
    (alone : read.FailsAlone) : target.StopsOnFailure maxLength context input := by
  intro error failed
  have failure := failed
  rw [decodes] at failure
  rcases Read.fill_eq_failure failure with ⟨cause, kept⟩
  rw [← decodes] at kept
  rw [kept]
  exact ⟨target, .here (.leaf leaf failed (alone error cause).2)⟩

end Nodes

/-- Where the decoder of the fields fails, it stops inside one of them. -/
theorem fields_stop_of_failure {maxLength : Nat} {fields : Fields} {input : Bytes}
    {error : CodecError}
    (each : ∀ field ∈ fields, ∀ context input, field.2.StopsOnFailure maxLength context input)
    (failed : (decodeFields maxLength fields input).error = some error) :
    ∃ front name target back done middle left source node,
      fields = front ++ (name, target) :: back ∧
      decodeFields maxLength front input = ⟨done, middle, none⟩ ∧
      target.Stops maxLength .nested middle left source node ∧
      error = .field name source ∧
      (decodeFields maxLength fields input).target = done ++ (name, left) :: back := by
  rcases decodeFields_eq_failure failed with
    ⟨front, name, target, back, done, middle, source, rfl, before, stopped, rfl, left⟩
  have mem : (name, target) ∈ front ++ (name, target) :: back :=
    List.mem_append_right front List.mem_cons_self
  rcases each _ mem .nested middle source stopped with ⟨node, stops⟩
  exact ⟨front, name, target, back, done, middle, _, source, node, rfl, before, stops, rfl, left⟩

/-- A list fails at its length, or at the first item that fails. -/
theorem list_stopsOnFailure {maxLength : Nat} {template : Value} (items : List Value)
    (each : ∀ context input, template.StopsOnFailure maxLength context input)
    (context : Context) (input : Bytes) :
    (outputList items (some template)).StopsOnFailure maxLength context input := by
  cases context with
  | nested =>
      rcases counted : Bytes.readBoundedLength maxLength input with ⟨error | count, start⟩
      · have refused : (Bytes.readBoundedLength maxLength input).result = .error error := by
          rw [counted]
        have bare := (Bytes.readBoundedLength_failsAlone maxLength input error refused).2
        exact stopsOnFailure_of_refuses (decode_outputList_of_error refused)
          (.count items template refused bare)
      · intro error failed
        rw [decode_outputList_of_count (by rw [counted]), counted] at failed ⊢
        rcases decodeItems_eq_failure failed with
          ⟨done, middle, fewer, before, stopped, left⟩
        rcases each .nested middle error stopped with ⟨node, stops⟩
        refine ⟨node, ?_⟩
        rw [Decoded.map, left]
        exact .item items counted fewer before stops
  | topLevel =>
      intro error failed
      rw [decode] at failed ⊢
      rcases decodeToEnd_eq_failure failed with ⟨done, middle, before, stopped, left⟩
      rcases each .nested middle error stopped with ⟨node, stops⟩
      refine ⟨node, ?_⟩
      rw [Decoded.map, left]
      exact .itemToEnd items before stops

/-- Every decoder stops at a node of its target: at the first of its fields or items that fails, if
one does, and at the target itself otherwise.  The induction is on the target. -/
theorem stopsOnFailure (maxLength : Nat) (target : Value) (context : Context) (input : Bytes) :
    target.StopsOnFailure maxLength context input := by
  induction target generalizing context input with
  | bool value => exact stopsOnFailure_of_read rfl (by rw [decode]) (readBool_failsAlone _ _)
  | int type word => exact stopsOnFailure_of_read rfl (by rw [decode]) (readInt_failsAlone _ _ _)
  | natural value =>
      exact stopsOnFailure_of_read rfl (by rw [decode]) (readPayload_failsAlone _ _ _)
  | integer value =>
      exact stopsOnFailure_of_read rfl (by rw [decode]) (readPayload_failsAlone _ _ _)
  | text content =>
      apply stopsOnFailure_of_read rfl (by rw [decode])
      exact (readPayload_failsAlone _ _ _).check fun _ _ => textOfBytes_failsAlone
  | bytes content =>
      exact stopsOnFailure_of_read rfl (by rw [decode]) (readPayload_failsAlone _ _ _)
  | address content =>
      exact stopsOnFailure_of_read rfl (by rw [decode]) (readAddress_failsAlone _ _)
  | absent =>
      cases input with
      | nil =>
          cases context with
          | nested => exact stopsOnFailure_of_refuses rfl .absent
          | topLevel => exact stopsOnFailure_of_success rfl
      | cons presence rest =>
          by_cases zero : presence = 0
          · apply stopsOnFailure_of_success
            rw [decode_absent_cons, if_pos zero]
          · have refused : absent.decode maxLength context (presence :: rest) =
                ⟨absent, rest, some .missingOptionTarget⟩ := by
              rw [decode_absent_cons, if_neg zero]
            exact stopsOnFailure_of_refuses refused (.content context rest zero)
  | present content ih =>
      cases input with
      | nil =>
          cases context with
          | nested => exact stopsOnFailure_of_refuses rfl (.present content)
          | topLevel => exact stopsOnFailure_of_success rfl
      | cons presence rest =>
          by_cases zero : presence = 0
          · apply stopsOnFailure_of_success
            rw [decode_present_cons, if_pos zero]
          · intro error failed
            rw [decode_present_cons, if_neg zero] at failed ⊢
            rcases ih .nested rest error failed with ⟨node, stops⟩
            exact ⟨node, .present context zero stops⟩
  | list items _ =>
      exact stopsOnFailure_of_refuses (by rw [decode]) (.list items context input)
  | outputList items template _ ih =>
      cases template with
      | none => exact stopsOnFailure_of_refuses (by rw [decode]) (.template items context input)
      | some template =>
          exact list_stopsOnFailure items (ih template rfl) context input
  | struct fields ih =>
      intro error failed
      rw [decode] at failed ⊢
      rcases fields_stop_of_failure ih failed with
        ⟨front, name, target, back, done, middle, left, source, node, rfl, before, stops, rfl,
          whole⟩
      refine ⟨node, ?_⟩
      rw [Decoded.map, whole]
      exact .struct context before stops
  | enum old fields ih =>
      cases input with
      | nil =>
          cases context with
          | nested => exact stopsOnFailure_of_refuses rfl (.enum old fields)
          | topLevel => exact stopsOnFailure_of_success rfl
      | cons discriminant rest =>
          intro error failed
          rw [decode_enum_cons] at failed ⊢
          rcases fields_stop_of_failure ih failed with
            ⟨front, name, target, back, done, middle, left, source, node, rfl, before, stops, rfl,
              whole⟩
          refine ⟨node, ?_⟩
          rw [Decoded.map, whole]
          exact .enum context old discriminant before stops

/-- The names of the error lead to a node that fails by itself, for the reason at the root of
the error, and this is what decoding until then leaves of the target. -/
def FailsAtNode (maxLength : Nat) (target : Value) (context : Context) (input : Bytes)
    (left : Value) (error : CodecError) : Prop :=
  error = error.path.foldr .field error.root ∧
    ∃ node, target.Leads error.path node ∧
      (∃ nodeContext nodeInput, node.Refuses maxLength nodeContext nodeInput error.root) ∧
      target.Stops maxLength context input left error node

/-- A failed decode changes only what it has reached.  The error names the way to the
failing node, which keeps what it held; the fields before it are decoded, those behind
are as they were, and a list holds its complete items.  A payload that goes on after the
value is refused when the whole target has been filled in. -/
theorem decode_failsAtNode (maxLength : Nat) (target : Value) :
    (∀ context input error, (target.decode maxLength context input).error = some error →
        target.FailsAtNode maxLength context input
          (target.decode maxLength context input).target error) ∧
      ∀ payload left error, target.decodePayload maxLength payload = (left, some error) →
        target.FailsAtNode maxLength .topLevel payload left error ∨
          ∃ rest, rest ≠ [] ∧ target.decode maxLength .topLevel payload = ⟨left, rest, none⟩ ∧
            error = .trailingBytes rest.length := by
  have fails (context input error)
      (failed : (target.decode maxLength context input).error = some error) :
      target.FailsAtNode maxLength context input
        (target.decode maxLength context input).target error := by
    rcases stopsOnFailure maxLength target context input error failed with ⟨node, stops⟩
    exact ⟨error.eq_foldr_path, node, stops.leads, stops.refuses, stops⟩
  refine ⟨fails, ?_⟩
  intro payload left error failed
  rcases decoded : target.decode maxLength .topLevel payload with ⟨found, rest, _ | cause⟩
  · right
    simp only [decodePayload, decoded] at failed
    cases rest with
    | nil => cases failed
    | cons byte rest =>
        cases failed
        exact ⟨byte :: rest, List.cons_ne_nil byte rest, rfl, rfl⟩
  · left
    simp only [decodePayload, decoded] at failed
    cases failed
    have here := fails .topLevel payload error (by rw [decoded])
    rwa [decoded] at here

/-- An order that is cut in the note of its second line, and one that goes on. -/
theorem decode_failsAtNode_order :
    let line := struct [("count", int .u16 0), ("note", present (text "old"))]
    let order := struct [("paid", bool false), ("lines", outputList [line] (some line)),
      ("memo", text "keep")]
    let cut := [1, 0, 0, 0, 2, 0, 5, 0, 0, 6, 1, 0, 0, 0, 3, 104]
    let left := struct [("paid", bool true),
      ("lines", outputList [struct [("count", int .u16 5), ("note", absent)]] (some line)),
      ("memo", text "keep")]
    let error := CodecError.field "lines" (.field "note" (.shortRead 3 1))
    let whole := [1, 0, 0, 0, 0, 0, 0, 0, 0]
    let filled := struct [("paid", bool true), ("lines", outputList [] (some line)),
      ("memo", text "")]
    (order.decode 9 .nested cut = ⟨left, [104], some error⟩ ∧
        order.FailsAtNode 9 .nested cut left error) ∧
      order.decodePayload 9 (whole ++ [7]) = (filled, some (.trailingBytes 1)) ∧
        (order.FailsAtNode 9 .topLevel (whole ++ [7]) filled (.trailingBytes 1) ∨
          ∃ rest, rest ≠ [] ∧
            order.decode 9 .topLevel (whole ++ [7]) = ⟨filled, rest, none⟩ ∧
            CodecError.trailingBytes 1 = .trailingBytes rest.length) := by
  intro line order cut left error whole filled
  have stopped : order.decode 9 .nested cut = ⟨left, [104], some error⟩ := by
    simp only [order, line, cut, left, error]
    rfl
  have goesOn : order.decodePayload 9 (whole ++ [7]) = (filled, some (.trailingBytes 1)) := by
    simp only [order, line, whole, filled]
    rfl
  rcases decode_failsAtNode 9 order with ⟨fails, failsWhole⟩
  have atNode := fails .nested cut error (by rw [stopped])
  rw [stopped] at atNode
  exact ⟨⟨stopped, atNode⟩, goesOn, failsWhole _ _ _ goesOn⟩

end Value

end ContractAbi
