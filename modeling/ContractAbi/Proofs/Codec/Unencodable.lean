import ContractAbi.Proofs.Codec.Shape
import ContractAbi.Proofs.Codec.Writing

/-!
# What has no encoding

Encoding fails exactly if one of the nodes of the value has no encoding of its own, and
stops at the first such node from left to right.  What was written by then depends on
the nodes before it only, so that it begins the encoding of every value in which the
nodes without an encoding have been replaced.
-/

namespace ContractAbi

/-- The greatest number that a length prefix holds. -/
def maxPrefix : Nat := 4294967295

/-- The error of a length that no prefix holds. -/
def excess (length : Nat) : Option CodecError :=
  if length ≤ maxPrefix then none else some (.lengthOverflow length)

/-- A part of a value, with the names of the fields on the way to it. -/
structure Node where
  path : List String
  value : Value
  context : Context

def Node.inField (name : String) (node : Node) : Node :=
  { node with path := name :: node.path }

namespace Value

/-- Why a value has no encoding, whatever its parts are: it is a negative integer at top
level, an address of another length, or it has too long a payload or too many items for
the prefix that it needs inside another value. -/
def offence? : Value → Context → Option CodecError
  | int type word, .topLevel =>
    if type.value word < 0 then some (.negativeTopLevel type) else none
  | natural value, .nested => excess (BigEndian.ofNat value).length
  | integer value, .nested => excess (BigEndian.ofInt value).length
  | text content, .nested => excess (Utf8.encode content.toList).length
  | bytes content, .nested => excess content.length
  | address content, _ =>
    if content.length = addressLength then none
    else some (.invalidLength "address" content.length addressLength)
  | list items, .nested | outputList items _, .nested => excess items.length
  | _, _ => none

mutual

/-- The nodes inside a value, each before those inside it, from left to right. -/
def inner : Value → List Node
  | present content => ⟨[], content, .nested⟩ :: content.inner
  | list items | outputList items _ => nodesOfItems items
  | struct fields | enum _ fields => nodesOfFields fields
  | _ => []

def nodesOfItems : List Value → List Node
  | [] => []
  | item :: items => ⟨[], item, .nested⟩ :: item.inner ++ nodesOfItems items

def nodesOfFields : Fields → List Node
  | [] => []
  | (name, value) :: fields =>
    (⟨[], value, .nested⟩ :: value.inner).map (.inField name) ++ nodesOfFields fields

end

/-- The nodes of a value in depth-first order, beginning with the value itself. -/
def nodes (value : Value) (context : Context) : List Node :=
  ⟨[], value, context⟩ :: value.inner

mutual

/-- The other value is this one with some of its nodes replaced, all of them without an
encoding. -/
inductive Repaired : Context → Value → Value → Prop where
  | replaced {context value error} (other) : value.offence? context = some error →
      Repaired context value other
  | kept (context value) : Repaired context value value
  | present {content other} (context) : Repaired .nested content other →
      Repaired context (present content) (present other)
  | list {items others} (context) : List.Forall₂ (Repaired .nested) items others →
      Repaired context (list items) (list others)
  | outputList {items others} (context template) : List.Forall₂ (Repaired .nested) items others →
      Repaired context (outputList items template) (outputList others template)
  | struct {fields others} (context) : FieldsRepaired fields others →
      Repaired context (struct fields) (struct others)
  | enum {fields others} (context discriminant) : FieldsRepaired fields others →
      Repaired context (enum discriminant fields) (enum discriminant others)

inductive FieldsRepaired : Fields → Fields → Prop where
  | nil : FieldsRepaired [] []
  | cons {value other fields others} (name) : Repaired .nested value other →
      FieldsRepaired fields others →
      FieldsRepaired ((name, value) :: fields) ((name, other) :: others)

end

end Value

/-- The error of an encoder that stops at the node. -/
def Node.error? (node : Node) : Option CodecError :=
  (node.value.offence? node.context).map (node.path.foldr .field ·)

theorem Node.error?_inField (name : String) (node : Node) :
    (node.inField name).error? = node.error?.map (.field name) := by
  rw [error?, error?, Option.map_map]
  rfl

theorem findSome?_map_inField (name : String) (nodes : List Node) :
    (nodes.map (Node.inField name)).findSome? Node.error? =
      (nodes.findSome? Node.error?).map (.field name) := by
  rw [List.findSome?_map, List.map_findSome?]
  congr 1
  funext node
  exact node.error?_inField name

namespace Written

theorem error_append (first second : Written) :
    (first ++ second).error = first.error.or second.error := by
  rcases first with ⟨bytes, _ | error⟩ <;> rfl

theorem result_eq_error_iff {written : Written} {error : CodecError} :
    written.result = .error error ↔ written.error = some error := by
  rcases written with ⟨bytes, _ | other⟩
  · simp [result]
  · simp [result]

end Written

theorem writeLength_of_excess {length : Nat} {error : CodecError}
    (long : excess length = some error) : writeLength length = .failed error := by
  have bound : BigEndian.bound lengthPrefixSize = maxPrefix + 1 := by decide
  rw [excess] at long
  split at long
  · cases long
  · cases long
    rw [writeLength, bound, if_neg (by omega)]

theorem error_writeLength (length : Nat) : (writeLength length).error = excess length := by
  have bound : BigEndian.bound lengthPrefixSize = maxPrefix + 1 := by decide
  cases long : excess length with
  | some error => rw [writeLength_of_excess long]; rfl
  | none =>
      rw [excess] at long
      split at long
      · rw [writeLength, bound, if_pos (by omega)]
        rfl
      · cases long

theorem writePrefixed_of_excess {payload : Bytes} {error : CodecError}
    (long : excess payload.length = some error) : writePrefixed payload = .failed error := by
  rw [writePrefixed, writeLength_of_excess long]
  rfl

theorem error_writePrefixed (payload : Bytes) :
    (writePrefixed payload).error = excess payload.length := by
  rw [writePrefixed, Written.error_append, error_writeLength]
  exact Option.or_none

namespace Value

theorem error_writeAddress (content : Bytes) (context : Context) :
    (writeAddress content).error = (address content).offence? context := by
  rw [writeAddress, checkLength, offence?]
  by_cases right : content.length = addressLength
  · rw [if_pos right, if_pos right]
    rfl
  · rw [if_neg right, if_neg right]
    rfl

/-- The encoder of the value stops where a search through its nodes does. -/
def StopsAtFirst (value : Value) (context : Context) : Prop :=
  (value.write context).error = (value.nodes context).findSome? Node.error?

theorem findSome?_nodes (value : Value) (context : Context) :
    (value.nodes context).findSome? Node.error? =
      (value.offence? context).or (value.inner.findSome? Node.error?) := by
  have self : (⟨[], value, context⟩ : Node).error? = value.offence? context :=
    Option.map_id_apply
  rw [nodes, List.findSome?_cons, self]
  cases value.offence? context <;> rfl

theorem error_writeItems {items : List Value} (each : ∀ item ∈ items, item.StopsAtFirst .nested) :
    (writeItems items).error = (nodesOfItems items).findSome? Node.error? := by
  induction items with
  | nil => rfl
  | cons item items ih =>
      rw [List.forall_mem_cons] at each
      rw [writeItems, Written.error_append, each.1, ih each.2, ← List.findSome?_append]
      rfl

theorem error_writeFields {fields : Fields}
    (each : ∀ field ∈ fields, field.2.StopsAtFirst .nested) :
    (writeFields fields).error = (nodesOfFields fields).findSome? Node.error? := by
  induction fields with
  | nil => rfl
  | cons field fields ih =>
      rw [List.forall_mem_cons] at each
      rw [writeFields, Written.error_append, ih each.2, nodesOfFields, List.findSome?_append,
        findSome?_map_inField, Written.inField, each.1]
      rfl

theorem stopsAtFirst_of_payload {value : Value} {payload : Bytes}
    (writes : value.write .nested = writePrefixed payload)
    (offends : value.offence? .nested = excess payload.length) (leaf : value.inner = []) :
    value.StopsAtFirst .nested := by
  rw [StopsAtFirst, findSome?_nodes, writes, error_writePrefixed, offends, leaf]
  exact Option.or_none.symm

/-- The error of an encoder is that of the first node without an encoding. -/
theorem stopsAtFirst (value : Value) (context : Context) : value.StopsAtFirst context := by
  induction value generalizing context with
  | bool value => cases context <;> rfl
  | int type word =>
      cases context with
      | nested => rfl
      | topLevel =>
          rw [StopsAtFirst, findSome?_nodes, write, writeInt, offence?]
          split <;> rfl
  | natural _ | integer _ | text _ | bytes _ =>
      cases context with
      | nested => exact stopsAtFirst_of_payload rfl rfl rfl
      | topLevel => rfl
  | address content =>
      rw [StopsAtFirst, findSome?_nodes, write, error_writeAddress content context]
      exact Option.or_none.symm
  | absent => cases context <;> rfl
  | present content ih =>
      have body : (write content .nested).error = _ := ih .nested
      rw [StopsAtFirst, findSome?_nodes, write, Written.error_append, body]
      cases context <;> rfl
  | list items ih =>
      have body := error_writeItems fun item mem => ih item mem .nested
      rw [StopsAtFirst, findSome?_nodes]
      cases context with
      | nested => rw [write, Written.error_append, error_writeLength, body]; rfl
      | topLevel => rw [write, body]; rfl
  | outputList items template ih _ =>
      have body := error_writeItems fun item mem => ih item mem .nested
      rw [StopsAtFirst, findSome?_nodes]
      cases context with
      | nested => rw [write, Written.error_append, error_writeLength, body]; rfl
      | topLevel => rw [write, body]; rfl
  | struct fields ih =>
      rw [StopsAtFirst, findSome?_nodes, write,
        error_writeFields fun field mem => ih field mem .nested]
      cases context <;> rfl
  | enum discriminant fields ih =>
      have body := error_writeFields fun field mem => ih field mem .nested
      rw [StopsAtFirst, findSome?_nodes]
      cases context with
      | nested => rw [write, Written.error_append, body]; rfl
      | topLevel =>
          rw [write]
          split
          · rename_i unit
            rw [List.isEmpty_iff.1 unit.2]
            rfl
          · rw [Written.error_append, body]
            rfl

end Value

namespace Written

/-- What was written is a beginning of these bytes, and all of them if nothing failed. -/
structure Begins (written : Written) (bytes : Bytes) : Prop where
  beginning : written.bytes <+: bytes
  whole : written.error = none → written.bytes = bytes

theorem begins_of_result {written : Written} {bytes : Bytes} (done : written.result = .ok bytes) :
    written.Begins bytes := by
  rcases written with ⟨found, _ | error⟩
  · cases done
    exact ⟨List.prefix_rfl, fun _ => rfl⟩
  · cases done

theorem begins_failed (error : CodecError) (bytes : Bytes) : (failed error).Begins bytes :=
  ⟨List.nil_prefix, nofun⟩

theorem Begins.append {first second : Written} {front back : Bytes} (head : first.Begins front)
    (tail : second.Begins back) : (first ++ second).Begins (front ++ back) := by
  rcases first with ⟨found, _ | error⟩
  · have same : found = front := head.whole rfl
    subst same
    refine ⟨(List.prefix_append_right_inj found).2 tail.beginning, ?_⟩
    intro done
    exact congrArg (found ++ ·) (tail.whole done)
  · exact ⟨head.beginning.trans (List.prefix_append front back), nofun⟩

theorem Begins.inField {written : Written} {bytes : Bytes} (begins : written.Begins bytes)
    (name : String) : (written.inField name).Begins bytes := by
  refine ⟨begins.beginning, ?_⟩
  intro done
  exact begins.whole (Option.map_eq_none_iff.1 done)

end Written

namespace Value

theorem path_of_excess {length : Nat} {error : CodecError} (long : excess length = some error) :
    error.path = [] := by
  rw [excess] at long
  split at long <;> cases long
  rfl

theorem path_of_offence {value : Value} {context : Context} {error : CodecError}
    (offends : value.offence? context = some error) : error.path = [] := by
  rw [offence?.eq_def] at offends
  split at offends
  · split at offends <;> cases offends
    rfl
  · exact path_of_excess offends
  · exact path_of_excess offends
  · exact path_of_excess offends
  · exact path_of_excess offends
  · split at offends <;> cases offends
    rfl
  · exact path_of_excess offends
  · exact path_of_excess offends
  · cases offends

/-- A value without an encoding of its own leaves nothing written. -/
theorem write_of_offence {value : Value} {context : Context} {error : CodecError}
    (offends : value.offence? context = some error) : value.write context = .failed error := by
  cases value with
  | int type word =>
      cases context with
      | nested => cases offends
      | topLevel =>
          rw [offence?] at offends
          split at offends <;> cases offends
          rename_i negative
          rw [write, writeInt, if_pos negative]
  | address content =>
      rw [offence?] at offends
      split at offends <;> cases offends
      rename_i other
      rw [write, writeAddress, checkLength, if_neg other]
  | list items | outputList items template =>
      cases context with
      | nested =>
          rw [write, writeLength_of_excess offends]
          rfl
      | topLevel => cases offends
  | natural value | integer value | text content | bytes content =>
      cases context with
      | nested => exact writePrefixed_of_excess offends
      | topLevel => cases offends
  | _ => cases context <;> cases offends

/-- The encoding of a repaired value begins with what was written of the value. -/
def BeginsRepaired (value : Value) (context : Context) : Prop :=
  ∀ other bytes, Repaired context value other → other.encode context = .ok bytes →
    (value.write context).Begins bytes

theorem begins_of_itemsRepaired {items others : List Value} {bytes : Bytes}
    (repaired : List.Forall₂ (Repaired .nested) items others)
    (each : ∀ item ∈ items, item.BeginsRepaired .nested)
    (written : (writeItems others).result = .ok bytes) : (writeItems items).Begins bytes := by
  induction repaired generalizing bytes with
  | nil => exact Written.begins_of_result written
  | @cons item other items others head _ ih =>
      rw [List.forall_mem_cons] at each
      rcases Written.result_append_eq_ok.1 written with ⟨front, back, first, later, rfl⟩
      exact (each.1 other front head first).append (ih each.2 later)

theorem begins_of_fieldsRepaired {fields others : Fields} {bytes : Bytes}
    (repaired : FieldsRepaired fields others)
    (each : ∀ field ∈ fields, field.2.BeginsRepaired .nested)
    (written : (writeFields others).result = .ok bytes) : (writeFields fields).Begins bytes := by
  induction fields generalizing others bytes with
  | nil =>
      cases repaired
      exact Written.begins_of_result written
  | cons field fields ih =>
      cases repaired with
      | @cons value other _ others name head tail =>
          rw [List.forall_mem_cons] at each
          rcases Written.result_append_eq_ok.1 written with ⟨front, back, first, later, rfl⟩
          rw [Written.result_inField_eq_ok] at first
          exact ((each.1 other front head first).inField name).append (ih tail each.2 later)

theorem begins_of_replaced {value : Value} {context : Context} {error : CodecError}
    (offends : value.offence? context = some error) (bytes : Bytes) :
    (value.write context).Begins bytes := by
  rw [write_of_offence offends]
  exact Written.begins_failed error bytes

theorem FieldsRepaired.isEmpty_eq {fields others : Fields}
    (repaired : FieldsRepaired fields others) : fields.isEmpty = others.isEmpty := by
  cases repaired <;> rfl

theorem begins_of_listRepaired {items others : List Value} {bytes : Bytes}
    (repaired : List.Forall₂ (Repaired .nested) items others)
    (each : ∀ item ∈ items, item.BeginsRepaired .nested)
    (written : (writeLength others.length ++ writeItems others).result = .ok bytes) :
    (writeLength items.length ++ writeItems items).Begins bytes := by
  rcases Written.result_append_eq_ok.1 written with ⟨front, back, count, later, rfl⟩
  rw [repaired.length_eq]
  exact (Written.begins_of_result count).append (begins_of_itemsRepaired repaired each later)

/-- What is written before a node without an encoding does not depend on this node. -/
theorem beginsRepaired (value : Value) (context : Context) : value.BeginsRepaired context := by
  induction value generalizing context with
  | present content ih =>
      intro other bytes repaired encoded
      cases repaired with
      | replaced _ offends => exact begins_of_replaced offends bytes
      | kept => exact Written.begins_of_result encoded
      | @present _ other _ inside =>
          rw [encode, write] at encoded
          rcases Written.result_append_eq_ok.1 encoded with ⟨front, back, first, later, rfl⟩
          rw [write]
          exact (Written.begins_of_result first).append (ih .nested other back inside later)
  | list items ih =>
      intro other bytes repaired encoded
      cases repaired with
      | replaced _ offends => exact begins_of_replaced offends bytes
      | kept => exact Written.begins_of_result encoded
      | list _ inside =>
          have each (item) (mem : item ∈ items) := ih item mem .nested
          cases context with
          | nested => exact begins_of_listRepaired inside each encoded
          | topLevel => exact begins_of_itemsRepaired inside each encoded
  | outputList items template ih _ =>
      intro other bytes repaired encoded
      cases repaired with
      | replaced _ offends => exact begins_of_replaced offends bytes
      | kept => exact Written.begins_of_result encoded
      | outputList _ _ inside =>
          have each (item) (mem : item ∈ items) := ih item mem .nested
          cases context with
          | nested => exact begins_of_listRepaired inside each encoded
          | topLevel => exact begins_of_itemsRepaired inside each encoded
  | struct fields ih =>
      intro other bytes repaired encoded
      cases repaired with
      | replaced _ offends => exact begins_of_replaced offends bytes
      | kept => exact Written.begins_of_result encoded
      | struct _ inside =>
          rw [encode, write] at encoded
          rw [write]
          exact begins_of_fieldsRepaired inside (fun field mem => ih field mem .nested) encoded
  | enum discriminant fields ih =>
      intro other bytes repaired encoded
      cases repaired with
      | replaced _ offends => exact begins_of_replaced offends bytes
      | kept => exact Written.begins_of_result encoded
      | @enum _ others _ _ inside =>
          have spelledOut {bytes : Bytes}
              (written : (Written.done [discriminant] ++ writeFields others).result = .ok bytes) :
              (Written.done [discriminant] ++ writeFields fields).Begins bytes := by
            rcases Written.result_append_eq_ok.1 written with ⟨front, back, first, later, rfl⟩
            exact (Written.begins_of_result first).append
              (begins_of_fieldsRepaired inside (fun field mem => ih field mem .nested) later)
          cases context with
          | nested => exact spelledOut encoded
          | topLevel =>
              -- A repair keeps the number of fields, and so the form of a unit variant.
              rw [encode, write, ← inside.isEmpty_eq] at encoded
              rw [write]
              split at encoded
              · rename_i unit
                rw [if_pos unit]
                exact Written.begins_of_result encoded
              · rename_i fielded
                rw [if_neg fielded]
                exact spelledOut encoded
  | _ =>
      intro other bytes repaired encoded
      cases repaired with
      | replaced _ offends => exact begins_of_replaced offends bytes
      | kept => exact Written.begins_of_result encoded

theorem offence_of_error {node : Node} {error : CodecError} (found : node.error? = some error) :
    node.value.offence? node.context = some error.root ∧ error.path = node.path := by
  rcases Option.map_eq_some_iff.1 found with ⟨reason, offends, rfl⟩
  have bare := path_of_offence offends
  rw [CodecError.root_foldr_field, CodecError.path_foldr_field, CodecError.root_eq_self bare, bare,
    List.append_nil]
  exact ⟨offends, rfl⟩

theorem encode_eq_error_iff {value : Value} {context : Context} {error : CodecError} :
    value.encode context = .error error ↔
      (value.nodes context).findSome? Node.error? = some error := by
  rw [← stopsAtFirst value context]
  exact Written.result_eq_error_iff

/-- Encoding fails exactly if some node has no encoding of its own. -/
theorem encode_fails_iff (value : Value) (context : Context) :
    (∃ error, value.encode context = .error error) ↔
      ∃ node ∈ value.nodes context, ∃ error, node.value.offence? node.context = some error := by
  have reached : (∃ error, value.encode context = .error error) ↔
      ∃ node ∈ value.nodes context, node.error?.isSome := by
    rw [← List.findSome?_isSome_iff, Option.isSome_iff_exists]
    exact exists_congr fun error => encode_eq_error_iff
  rw [reached]
  refine exists_congr fun node => and_congr_right fun _ => ?_
  rw [Node.error?, Option.isSome_map, Option.isSome_iff_exists]

/-- The error of the encoder is that of the first node without an encoding. -/
theorem firstOffence_of_error {value : Value} {context : Context} {error : CodecError}
    (failed : value.encode context = .error error) :
    ∃ before node after, value.nodes context = before ++ node :: after ∧
      (∀ earlier ∈ before, earlier.value.offence? earlier.context = none) ∧
      node.value.offence? node.context = some error.root ∧ error.path = node.path := by
  rcases List.findSome?_eq_some_iff.1 (encode_eq_error_iff.1 failed) with
    ⟨before, node, after, split, found, sound⟩
  refine ⟨before, node, after, split, ?_, offence_of_error found⟩
  intro earlier mem
  exact Option.map_eq_none_iff.1 (sound earlier mem)

/-- Encoding fails exactly if some node has no encoding of its own.  The error gives the
reason of the first such node in depth-first order, with the names of the fields on the
way to it, and what was written before it begins the encoding of every value in which
such nodes have been replaced. -/
theorem encode_stops_at_offence (value : Value) (context : Context) :
    ((∃ error, value.encode context = .error error) ↔
        ∃ node ∈ value.nodes context, ∃ error, node.value.offence? node.context = some error) ∧
      (∀ error, value.encode context = .error error →
        ∃ before node after, value.nodes context = before ++ node :: after ∧
          (∀ earlier ∈ before, earlier.value.offence? earlier.context = none) ∧
          node.value.offence? node.context = some error.root ∧ error.path = node.path) ∧
      ∀ error other bytes, value.encode context = .error error →
        Repaired context value other → other.encode context = .ok bytes →
          (value.write context).bytes <+: bytes := by
  refine ⟨encode_fails_iff value context, ?_, ?_⟩
  · intro error failed
    exact firstOffence_of_error failed
  · intro error other bytes _ repaired encoded
    exact (beginsRepaired value context other bytes repaired encoded).beginning

/-- An order whose line has a short address, and the order with a whole one. -/
theorem encode_stops_at_offence_order :
    let owner (length : Nat) := address (List.replicate length 9)
    let line (length : Nat) := struct [("count", int .u16 5), ("owner", owner length)]
    let order (length : Nat) := struct [("paid", bool true), ("lines", list [line length])]
    let error := CodecError.field "lines" (.field "owner" (.invalidLength "address" 20 32))
    let encoding := [1, 0, 0, 0, 1, 0, 5] ++ List.replicate 32 (9 : UInt8)
    ((order 20).encode .nested = .error error ∧ Repaired .nested (order 20) (order 32) ∧
        (order 32).encode .nested = .ok encoding) ∧
      (∃ node ∈ (order 20).nodes .nested,
        ∃ error, node.value.offence? node.context = some error) ∧
      (∃ before node after, (order 20).nodes .nested = before ++ node :: after ∧
        (∀ earlier ∈ before, earlier.value.offence? earlier.context = none) ∧
        node.value.offence? node.context = some error.root ∧ error.path = node.path) ∧
      ((order 20).write .nested).bytes <+: encoding := by
  intro owner line order error encoding
  have failed : (order 20).encode .nested = .error error := by rfl
  have encoded : (order 32).encode .nested = .ok encoding := by
    simp only [order, line, owner, encoding]
    rfl
  have ownerRepaired : Repaired .nested (owner 20) (owner 32) := .replaced (owner 32) rfl
  have lineRepaired : Repaired .nested (line 20) (line 32) :=
    .struct .nested (.cons "count" (.kept .nested _) (.cons "owner" ownerRepaired .nil))
  have repaired : Repaired .nested (order 20) (order 32) :=
    .struct .nested (.cons "paid" (.kept .nested _)
      (.cons "lines" (.list .nested (.cons lineRepaired .nil)) .nil))
  rcases encode_stops_at_offence (order 20) .nested with ⟨fails, first, begins⟩
  exact ⟨⟨failed, repaired, encoded⟩, fails.1 ⟨error, failed⟩, first error failed,
    begins error (order 32) encoding failed repaired encoded⟩

end Value

end ContractAbi
