import ContractAbi.Proofs.Codec.Payload
import ContractAbi.Proofs.Json.Typed
import ContractAbi.TypeExpr.Parser
import Mathlib

/-!
# Payloads of one type

A payload alone has no delimiters, and yet two values of one type never share one,
since each of them is read back from it.  Only a list of items without bytes has
no payload to be read back from: nothing in it counts the items.
-/

namespace ContractAbi

namespace Value

theorem writeItems_eq_nil {items : List Value}
    (each : ∀ item ∈ items, item.encode .nested = .ok []) :
    (writeItems items).result = .ok [] := by
  induction items with
  | nil => rfl
  | cons item items ih =>
      rw [List.forall_mem_cons] at each
      exact Written.result_append_eq_ok.2 ⟨[], [], each.1, ih each.2, rfl⟩

variable {value other : Value} {type : TypeExpr}

theorem HasType.encode_list_of_isZeroWidth (typed : value.HasType (.list type))
    (narrow : type.isZeroWidth = true) : value.encode .topLevel = .ok [] := by
  cases typed with
  | list each => exact writeItems_eq_nil fun item mem => (each item mem).encode_eq_nil_iff.2 narrow
  | outputList _ each =>
      exact writeItems_eq_nil fun item mem => (each item mem).encode_eq_nil_iff.2 narrow

/-- Values with one payload are the same value, but for the kind of their lists. -/
theorem HasType.asInput_eq_of_encode {payload : Bytes} (typed : value.HasType type)
    (otherTyped : other.HasType type)
    (wide : ∀ item, type = .list item → item.isZeroWidth = false)
    (encoded : value.encode .topLevel = .ok payload)
    (otherEncoded : other.encode .topLevel = .ok payload) : value.asInput = other.asInput := by
  -- A limit above the prefixes of both values, so that neither is refused.
  have limit : ∀ length ∈ value.prefixes .topLevel ++ other.prefixes .topLevel,
      length ≤ (value.prefixes .topLevel ++ other.prefixes .topLevel).sum :=
    fun length mem => List.le_sum_of_mem mem
  rw [List.forall_mem_append] at limit
  have first := decode_encode_topLevel typed.fits limit.1
    (fun _ => typed.ne_nil_of_mem_items wide) encoded
  have second := decode_encode_topLevel otherTyped.fits limit.2
    (fun _ => otherTyped.ne_nil_of_mem_items wide) otherEncoded
  rw [first, Decoded.mk.injEq] at second
  rw [← typed.asInput_into, second.1, otherTyped.asInput_into]

end Value

namespace TypeExpr

/-- Two values that are read at one type have the same payload exactly when they are the
same value, but for lists of items without bytes, which all have the empty payload. -/
theorem payload_eq_iff {type : TypeExpr} {json otherJson : Json} {value other : Value}
    {payload otherPayload : Bytes} (read : type.read json = .ok value)
    (otherRead : type.read otherJson = .ok other)
    (encoded : value.encode .topLevel = .ok payload)
    (otherEncoded : other.encode .topLevel = .ok otherPayload) :
    payload = otherPayload ↔
      value = other ∨ ∃ item, type = list item ∧ item.isZeroWidth = true := by
  have typed := type.readsTyped json value read
  have otherTyped := type.readsTyped otherJson other otherRead
  constructor
  · rintro rfl
    by_cases narrow : ∃ item, type = list item ∧ item.isZeroWidth = true
    · exact .inr narrow
    · have wide : ∀ item, type = .list item → item.isZeroWidth = false := by
        intro item same
        exact Bool.eq_false_iff.2 fun zero => narrow ⟨item, same, zero⟩
      have same := typed.asInput_eq_of_encode otherTyped wide encoded otherEncoded
      rw [type.readsInput json value read, type.readsInput otherJson other otherRead] at same
      exact .inl same
  · rintro (rfl | ⟨item, rfl, narrow⟩)
    · exact Except.ok.inj (encoded.symm.trans otherEncoded)
    · have empty := typed.encode_list_of_isZeroWidth narrow
      have otherEmpty := otherTyped.encode_list_of_isZeroWidth narrow
      rw [encoded, Except.ok.injEq] at empty
      rw [otherEncoded, Except.ok.injEq] at otherEmpty
      rw [empty, otherEmpty]

theorem payload_eq_iff_flags :
    let type := list (option bool)
    let value := Value.list [.present (.bool true), .absent]
    let other := Value.list [.absent, .present (.bool true)]
    type.read (.array [.bool true, .null]) = .ok value ∧
      type.read (.array [.null, .bool true]) = .ok other ∧
      value.encode .topLevel = .ok [1, 1, 0] ∧ other.encode .topLevel = .ok [0, 1, 1] ∧
      (([1, 1, 0] : Bytes) = [0, 1, 1] ↔
        value = other ∨ ∃ item, type = list item ∧ item.isZeroWidth = true) := by
  intro type value other
  have read : type.read (.array [.bool true, .null]) = .ok value := by rfl
  have otherRead : type.read (.array [.null, .bool true]) = .ok other := by rfl
  have encoded : value.encode .topLevel = .ok [1, 1, 0] := by rfl
  have otherEncoded : other.encode .topLevel = .ok [0, 1, 1] := by rfl
  exact ⟨read, otherRead, encoded, otherEncoded,
    payload_eq_iff read otherRead encoded otherEncoded⟩

/-- Nothing tells how many empty structs a payload stands for. -/
theorem payload_eq_of_empty_structs :
    let type := list (struct [])
    let value := Value.list []
    let other := Value.list [.struct []]
    parse "List<struct{}>" = .ok type ∧ type.read (.array []) = .ok value ∧
      type.read (.array [.object []]) = .ok other ∧ value ≠ other ∧
      value.encode .topLevel = .ok [] ∧ other.encode .topLevel = .ok [] := by
  exact ⟨by cbv, rfl, rfl, nofun, rfl, rfl⟩

end TypeExpr

end ContractAbi
