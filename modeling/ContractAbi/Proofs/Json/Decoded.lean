import ContractAbi.Proofs.Json.RoundTrip
import ContractAbi.Proofs.TypeExpr.Decoded
import Mathlib

/-!
# Documents of decoded values

What has been decoded from a whole payload is shown as a document from which the value can
be read and encoded again.  Only the default of an enum that declares fields is shown
without them, and is refused.  Apart from that, documents and values of a type that has
been read from a text correspond.
-/

namespace ContractAbi.TypeExpr

/-- The document of a value that was decoded into the target of a type is read as that
value.  The exception is the empty payload of an enum with fields. -/
theorem read_toJson_of_decodePayload {text : String} {type : TypeExpr} {maxLength : Nat}
    {payload : Bytes} {value : Value} (parsed : parse text = .ok type)
    (shaped : payload = [] → ∀ fields, type = enum fields → fields = [])
    (decoded : type.target.decodePayload maxLength payload = (value, none)) :
    type.read value.toJson = .ok value.asInput :=
  (Value.hasType_of_decodePayload shaped decoded).read_toJson (wellFormed_of_parse parsed)

theorem read_toJson_of_decodePayload_enum :
    let type := enum [("n", list integer)]
    let payload := [0, 0, 0, 0, 1, 0, 0, 0, 1, 255]
    let value := Value.enum 0 [("n", .outputList [.integer (-1)] (some (.integer 0)))]
    parse "enum{n:List<BigInt>}" = .ok type ∧
      (payload = [] → ∀ fields, type = enum fields → fields = []) ∧
      type.target.decodePayload 1 payload = (value, none) ∧
      value.toJson = .object [("discriminant", .integer 0),
        ("fields", .object [("n", .array [.string "-1"])])] ∧
      type.read value.toJson = .ok (.enum 0 [("n", .list [.integer (-1)])]) := by
  intro type payload value
  have parsed : parse "enum{n:List<BigInt>}" = .ok type := by cbv
  have shaped : payload = [] → ∀ fields, type = enum fields → fields = [] :=
    fun empty => absurd empty (by decide)
  have decoded : type.target.decodePayload 1 payload = (value, none) := by rfl
  exact ⟨parsed, shaped, decoded, by rfl, read_toJson_of_decodePayload parsed shaped decoded⟩

/-- The empty payload of an enum with a field leaves a value whose document lacks the field. -/
theorem read_toJson_of_default_enum :
    let type := enum [("a", int .u8)]
    parse "enum { a: u8 }" = .ok type ∧
      type.target.decodePayload defaultMaxLength [] = (.enum 0 [], none) ∧
        type.read (Value.enum 0 []).toJson =
          .error ⟨[.member "fields", .member "a"], .field (int .u8)⟩ := by
  exact ⟨by cbv, rfl, rfl⟩

/-- At a type that has been read from a text, the document of every value of the type is read
as the value.  Whatever is read from a document, or decoded inside another value, is a value
of the type, so it comes back from its document. -/
theorem read_toJson_inverse {text : String} {type : TypeExpr} (parsed : parse text = .ok type) :
    (∀ value : Value, value.HasType type → type.read value.toJson = .ok value.asInput) ∧
      (∀ json value, type.read json = .ok value →
        value.HasType type ∧ type.read value.toJson = .ok value) ∧
      ∀ maxLength input value rest,
        type.target.decode maxLength .nested input = ⟨value, rest, none⟩ →
        value.HasType type ∧ type.read value.toJson = .ok value.asInput := by
  have formed := wellFormed_of_parse parsed
  refine ⟨fun value typed => typed.read_toJson formed, ?_, ?_⟩
  · intro json value read
    have typed := type.readsTyped json value read
    have again := typed.read_toJson formed
    rw [type.readsInput json value read] at again
    exact ⟨typed, again⟩
  · intro maxLength input value rest decoded
    have typed := Value.hasType_of_decode_nested decoded
    exact ⟨typed, typed.read_toJson formed⟩

theorem read_toJson_inverse_list :
    let type := struct [("m", option (int .i8)), ("k", list bytes)]
    let items := [Value.bytes [171]]
    let value := Value.struct [("m", .absent), ("k", .outputList items (some (.bytes [])))]
    let document := Json.object [("k", .array [.string "ab"]), ("m", .null)]
    parse "struct{m:Option<i8>,k:List<bytes>}" = .ok type ∧
      type.target.decode 1 .nested [0, 0, 0, 0, 1, 0, 0, 0, 1, 171, 9] = ⟨value, [9], none⟩ ∧
      value.HasType type ∧ value.toJson = document ∧
      type.read document = .ok (.struct [("m", .absent), ("k", .list items)]) ∧
      (Value.struct [("m", .absent), ("k", .list items)]).HasType type := by
  intro type items value document
  have parsed : parse "struct{m:Option<i8>,k:List<bytes>}" = .ok type := by cbv
  have decoded : type.target.decode 1 .nested [0, 0, 0, 0, 1, 0, 0, 0, 1, 171, 9] =
      ⟨value, [9], none⟩ := by rfl
  have shown : value.toJson = document := by rfl
  have inverse := read_toJson_inverse parsed
  rcases inverse.2.2 _ _ _ _ decoded with ⟨typed, _⟩
  have read := inverse.1 value typed
  rw [shown] at read
  exact ⟨parsed, decoded, typed, shown, read, (inverse.2.1 _ _ read).1⟩

end ContractAbi.TypeExpr
