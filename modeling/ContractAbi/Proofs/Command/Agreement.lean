import ContractAbi.Command.Run
import ContractAbi.Proofs.Codec.Payload
import ContractAbi.Proofs.Json.Typed

/-!
# What was encoded from a document decodes to it

A document that is read at a type, encoded and decoded into the target of the type
is the document that the value itself is written as.  The decoded value need not be
the one that was encoded: its lists are those of the target.
-/

namespace ContractAbi

namespace Command

theorem decodeWhole_of_decode {maxLength : Nat} {type : TypeExpr} {context : Context}
    {data : Bytes} {value : Value}
    (decoded : type.target.decode maxLength context data = ⟨value, [], none⟩) :
    decodeWhole maxLength type context data = .ok value := by
  cases context with
  | nested => simp only [decodeWhole, decoded]
  | topLevel => simp only [decodeWhole, Value.decodePayload_of_decode decoded]

/-- Reading a document at a type, encoding the value and decoding the bytes into the
target of the type leaves nothing over and gives the document of the value.  The
one exception are whole payloads that are lists of items without bytes. -/
theorem decodeWhole_encode_read {maxLength : Nat} {type : TypeExpr} {json : Json} {value : Value}
    {context : Context} {bytes : Bytes} (read : type.read json = .ok value)
    (wide : context = .topLevel → ∀ item, type = .list item → item.isZeroWidth = false)
    (encoded : value.encode context = .ok bytes)
    (short : ∀ length ∈ value.prefixes context, length ≤ maxLength) :
    ∃ decoded, type.target.decode maxLength context bytes = ⟨decoded, [], none⟩ ∧
      decodeWhole maxLength type context bytes = .ok decoded ∧
      decoded.toJson = value.toJson := by
  have typed := type.readsTyped json value read
  have decoded : type.target.decode maxLength context bytes =
      ⟨value.into type.target, [], none⟩ := by
    cases context with
    | nested =>
        have back := Value.readsBack_of_fits typed.fits short bytes [] encoded
        rwa [List.append_nil] at back
    | topLevel =>
        exact Value.decode_encode_topLevel typed.fits short
          (fun _ => typed.ne_nil_of_mem_items (wide rfl)) encoded
  exact ⟨_, decoded, decodeWhole_of_decode decoded, typed.toJson_into⟩

theorem decodeWhole_encode_read_order :
    let type := TypeExpr.list (.struct [("amount", .option .integer), ("marks", .list (.struct [])),
      ("kind", .enum [("code", .int .i16)])])
    let json := Json.array [.object [("kind",
      .object [("discriminant", .integer 3), ("fields", .object [("code", .integer (-2))])]),
      ("marks", .array [.object [], .object []]), ("amount", .string " -3_00 ")]]
    let value := Value.list [.struct [("amount", .present (.integer (-300))),
      ("marks", .list [.struct [], .struct []]), ("kind", .enum 3 [("code", .int .i16 0xfffe)])]]
    let bytes := [1, 0, 0, 0, 2, 254, 212, 0, 0, 0, 2, 3, 255, 254]
    type.read json = .ok value ∧ (∀ item, type = .list item → item.isZeroWidth = false) ∧
      value.encode .topLevel = .ok bytes ∧ (∀ length ∈ value.prefixes .topLevel, length ≤ 2) ∧
      ∃ decoded, type.target.decode 2 .topLevel bytes = ⟨decoded, [], none⟩ ∧
        decodeWhole 2 type .topLevel bytes = .ok decoded ∧ decoded.toJson = value.toJson := by
  intro type json value bytes
  have read : type.read json = .ok value := by rfl
  have wide : ∀ item, type = .list item → item.isZeroWidth = false := by
    intro item same
    rw [TypeExpr.list.injEq] at same
    rw [← same]
    rfl
  have encoded : value.encode .topLevel = .ok bytes := by rfl
  have short : ∀ length ∈ value.prefixes .topLevel, length ≤ 2 := by decide
  exact ⟨read, wide, encoded, short, decodeWhole_encode_read read (fun _ => wide) encoded short⟩

end Command

end ContractAbi
