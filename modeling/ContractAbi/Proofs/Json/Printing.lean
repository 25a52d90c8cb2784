import ContractAbi.Json.Render
import ContractAbi.Proofs.Json.RoundTrip
import ContractAbi.Proofs.Json.Scanning

/-!
# Printed documents read back

A document without fractions, whose objects are in order and whose integers fit machine
words, is the only one that its text is read as.  The document of a value is always such.
-/

namespace ContractAbi

namespace Json

mutual

/-- How deep arrays and objects nest. -/
def depth : Json → Nat
  | array items => itemsDepth items + 1
  | object members => membersDepth members + 1
  | null | bool _ | integer _ | float .. | string _ => 0

def itemsDepth : List Json → Nat
  | [] => 0
  | item :: items => max item.depth (itemsDepth items)

def membersDepth : Members → Nat
  | [] => 0
  | (_, value) :: members => max value.depth (membersDepth members)

end

/-- The text is a single line, and it is read as the document unless the document nests deeper
than the reader goes. -/
def IsTextOf (text : List Char) (json : Json) : Prop :=
  '\n' ∉ text ∧ ∀ limit, json.depth ≤ limit → parseWithin? limit (String.ofList text) = some json

/-- What a document looks like that was read from a text without fractions and exponents. -/
inductive Plain : Json → Prop where
  | null : Plain null
  | bool (value) : Plain (bool value)
  | integer {value} : -2 ^ 63 ≤ value → value < 2 ^ 64 → Plain (integer value)
  | string (text) : Plain (string text)
  | array {items} : (∀ item ∈ items, Plain item) → Plain (array items)
  | object {members} : Sorted members → (∀ member ∈ members, Plain member.2) →
      Plain (object members)

/-- The text of the document is taken off the front of any text in which it ends. -/
def Scans (json : Json) : Prop :=
  ∀ {steps limit rest}, json.depth ≤ limit → 2 * json.print.length < steps → EndsNumber rest →
    scanValue? steps limit (json.print ++ rest) = some (json, rest)

section Starting

theorem skipSpace_cons {first : Char} (solid : isSpace first = false) (input : List Char) :
    skipSpace (first :: input) = first :: input :=
  List.dropWhile_cons_of_neg (by simp [solid])

theorem isSpace_of_isDigit {character : Char} (digit : character.isDigit = true) :
    isSpace character = false := by
  simp only [isSpace, Bool.or_eq_false_iff, beq_eq_false_iff_ne]
  refine ⟨⟨⟨?_, ?_⟩, ?_⟩, ?_⟩ <;> rintro rfl <;> cases digit

theorem scanValue?_of_number {first : Char} (starts : first.isDigit = true ∨ first = '-')
    (steps limit : Nat) (input : List Char) :
    scanValue? (steps + 1) limit (first :: input) = scanNumber? (first :: input) := by
  have solid : isSpace first = false := by
    rcases starts with digit | rfl
    · exact isSpace_of_isDigit digit
    · rfl
  rw [scanValue?, skipSpace_cons solid]
  -- The first character of a number is none of those of the other documents.
  split <;> simp_all

theorem print_integer (value : Int) :
    (integer value).print =
      if 0 ≤ value then Nat.toDigits 10 value.toNat
      else '-' :: Nat.toDigits 10 (-value).toNat := by
  rw [print, Decimal.toList_toString_integer]

/-- No document is written with a blank or a closing bracket in front. -/
theorem Plain.starts {json : Json} (plain : json.Plain) :
    ∃ first others, json.print = first :: others ∧ isSpace first = false ∧ first ≠ ']' := by
  cases plain with
  | null | string | array | object => exact ⟨_, _, rfl, by decide, by decide⟩
  | bool value => cases value <;> exact ⟨_, _, rfl, by decide, by decide⟩
  | @integer value =>
      rw [print_integer]
      split
      · rcases Decimal.exists_toDigits_eq_cons value.toNat with ⟨first, others, digits, digit⟩
        refine ⟨first, others, digits, isSpace_of_isDigit digit, ?_⟩
        rintro rfl
        cases digit
      · exact ⟨_, _, rfl, by decide, by decide⟩

end Starting

section Scanning

/-- Every document has characters, so that there is a first step. -/
theorem scans_of_succ {json : Json}
    (each : ∀ steps limit rest, json.depth ≤ limit → 2 * json.print.length < steps + 1 →
      EndsNumber rest → scanValue? (steps + 1) limit (json.print ++ rest) = some (json, rest)) :
    json.Scans := by
  intro steps limit rest shallow enough ends
  cases steps with
  | zero => cases enough
  | succ steps => exact each steps limit rest shallow enough ends

theorem scans_null : null.Scans :=
  scans_of_succ fun _ _ _ _ _ _ => rfl

theorem scans_bool (value : Bool) : (bool value).Scans := by
  apply scans_of_succ
  intro steps limit rest _ _ _
  cases value <;> rfl

theorem scans_string (text : String) : (string text).Scans := by
  apply scans_of_succ
  intro steps limit rest _ _ _
  have opened (input : List Char) : scanValue? (steps + 1) limit ('"' :: input) =
      (scanString? ('"' :: input)).map fun found => (string found.1, found.2) := rfl
  have scanned := scanString?_quoted text rest
  rw [quoted, List.append_assoc, List.singleton_append, List.cons_append] at scanned
  rw [print, quoted, List.append_assoc, List.singleton_append, List.cons_append, opened, scanned]
  rfl

theorem scans_integer {value : Int} (low : -2 ^ 63 ≤ value) (high : value < 2 ^ 64) :
    (integer value).Scans := by
  have bound : Number.significandBound = 2 ^ 64 := rfl
  apply scans_of_succ
  intro steps limit rest _ _ ends
  rw [print_integer]
  split
  · rename_i positive
    rcases Decimal.exists_toDigits_eq_cons value.toNat with ⟨first, others, digits, digit⟩
    have small : value.toNat < Number.significandBound := by omega
    have scanned := scanNumber?_toDigits small ends
    rw [digits, List.cons_append] at scanned
    rw [digits, List.cons_append, scanValue?_of_number (.inl digit), scanned,
      Int.toNat_of_nonneg positive]
  · have same : -((-value).toNat : Int) = value := by omega
    rw [List.cons_append, scanValue?_of_number (.inr rfl),
      scanNumber?_minus_toDigits (by omega) (by omega) ends, same]

/-- The items of an array are scanned up to its bracket, with enough steps for their characters. -/
theorem scanItems?_printItems {items : List Json} (nonempty : items ≠ [])
    (each : ∀ item ∈ items, item.Scans) {steps limit : Nat} (rest : List Char)
    (shallow : itemsDepth items ≤ limit) (enough : 2 * ((printItems items).length + 1) < steps) :
    scanItems? steps limit (printItems items ++ ']' :: rest) = some (items, rest) := by
  induction items generalizing steps with
  | nil => exact absurd rfl nonempty
  | cons item items ih =>
      rw [List.forall_mem_cons] at each
      rw [itemsDepth, Nat.max_le] at shallow
      cases steps with
      | zero => cases enough
      | succ steps =>
          cases items with
          | nil =>
              rw [printItems] at enough ⊢
              rw [scanItems?, each.1 shallow.1 (by omega) (by simp [EndsNumber])]
              rfl
          | cons next others =>
              simp only [printItems, List.length_append, List.length_singleton] at enough
              have same : printItems (item :: next :: others) ++ ']' :: rest =
                  item.print ++ ',' :: (printItems (next :: others) ++ ']' :: rest) := by
                simp [printItems]
              have scanned : scanItems? steps limit (printItems (next :: others) ++ ']' :: rest) =
                  some (next :: others, rest) :=
                ih (List.cons_ne_nil _ _) each.2 shallow.2 (by omega)
              rw [same, scanItems?, each.1 shallow.1 (by omega) (by simp [EndsNumber])]
              simp [skipSpace_cons, isSpace, scanned]

theorem scanMembers?_quoted (steps limit : Nat) (name : String) (input : List Char) :
    scanMembers? (steps + 1) limit (quoted name ++ ':' :: input) =
      (scanValue? steps limit input).bind fun (value, rest) =>
        match skipSpace rest with
        | ',' :: rest => do
          let (members, rest) ← scanMembers? steps limit rest
          return ((name, value) :: members, rest)
        | '}' :: rest => some ([(name, value)], rest)
        | _ => none := by
  have named : scanString? (skipSpace (quoted name ++ ':' :: input)) = some (name, ':' :: input) :=
    scanString?_quoted name (':' :: input)
  rw [scanMembers?, named]
  rfl

/-- The members of an object are scanned up to its brace. -/
theorem scanMembers?_printMembers {members : Members} (nonempty : members ≠ [])
    (each : ∀ member ∈ members, member.2.Scans) {steps limit : Nat} (rest : List Char)
    (shallow : membersDepth members ≤ limit)
    (enough : 2 * ((printMembers members).length + 1) < steps) :
    scanMembers? steps limit (printMembers members ++ '}' :: rest) = some (members, rest) := by
  induction members generalizing steps with
  | nil => exact absurd rfl nonempty
  | cons member members ih =>
      rcases member with ⟨name, value⟩
      rw [List.forall_mem_cons] at each
      rcases each with ⟨(valueScans : value.Scans), each⟩
      rw [membersDepth, Nat.max_le] at shallow
      cases steps with
      | zero => cases enough
      | succ steps =>
          cases members with
          | nil =>
              simp only [printMembers, List.length_append, List.length_singleton] at enough
              have same : printMembers [(name, value)] ++ '}' :: rest =
                  quoted name ++ ':' :: (value.print ++ '}' :: rest) := by
                simp [printMembers]
              rw [same, scanMembers?_quoted, valueScans shallow.1 (by omega) (by simp [EndsNumber])]
              rfl
          | cons next others =>
              simp only [printMembers, List.length_append, List.length_singleton] at enough
              have same : printMembers ((name, value) :: next :: others) ++ '}' :: rest =
                  quoted name ++ ':' :: (value.print ++
                    ',' :: (printMembers (next :: others) ++ '}' :: rest)) := by
                simp [printMembers]
              have scanned :
                  scanMembers? steps limit (printMembers (next :: others) ++ '}' :: rest) =
                    some (next :: others, rest) :=
                ih (List.cons_ne_nil _ _) each shallow.2 (by omega)
              rw [same, scanMembers?_quoted, valueScans shallow.1 (by omega) (by simp [EndsNumber])]
              simp [skipSpace_cons, isSpace, scanned]

theorem printItems_starts {item : Json} (plain : item.Plain) (others : List Json) :
    ∃ first more, printItems (item :: others) = first :: more ∧ isSpace first = false ∧
      first ≠ ']' := by
  rcases plain.starts with ⟨first, more, starts, solid, inside⟩
  cases others with
  | nil => exact ⟨first, more, starts, solid, inside⟩
  | cons next others =>
      refine ⟨first, more ++ [','] ++ printItems (next :: others), ?_, solid, inside⟩
      simp [printItems, starts]

theorem scanValue?_items {first : Char} (solid : isSpace first = false) (inside : first ≠ ']')
    (steps limit : Nat) (input : List Char) :
    scanValue? (steps + 1) (limit + 1) ('[' :: first :: input) =
      (scanItems? steps limit (first :: input)).map fun (items, rest) => (array items, rest) := by
  have bracket : skipSpace ('[' :: first :: input) = '[' :: first :: input := rfl
  simp only [scanValue?, bracket, skipSpace_cons solid]
  split
  · rename_i same
    exact absurd (List.head_eq_of_cons_eq same) inside
  · rfl

theorem printMembers_starts (member : String × Json) (others : Members) :
    ∃ more, printMembers (member :: others) = '"' :: more := by
  cases others <;> exact ⟨_, rfl⟩

theorem scanValue?_members (steps limit : Nat) (input : List Char) :
    scanValue? (steps + 1) (limit + 1) ('{' :: '"' :: input) =
      (scanMembers? steps limit ('"' :: input)).map fun (members, rest) =>
        (object (ofMembers members), rest) :=
  rfl

/-- An array is scanned item by item, with a comma before each but the first. -/
theorem scans_array {items : List Json} (plain : ∀ item ∈ items, item.Plain)
    (each : ∀ item ∈ items, item.Scans) : (array items).Scans := by
  apply scans_of_succ
  intro steps limit rest shallow enough _
  rw [depth] at shallow
  simp only [print, List.length_append, List.length_singleton] at enough
  have same : (array items).print ++ rest = '[' :: (printItems items ++ ']' :: rest) := by
    simp [print]
  rw [same]
  cases limit with
  | zero => cases shallow
  | succ limit =>
      cases items with
      | nil => rfl
      | cons item others =>
          have scanned : scanItems? steps limit (printItems (item :: others) ++ ']' :: rest) =
              some (item :: others, rest) :=
            scanItems?_printItems (List.cons_ne_nil item others) each rest
              (Nat.le_of_succ_le_succ shallow) (by omega)
          rcases printItems_starts (plain item List.mem_cons_self) others with
            ⟨first, more, starts, solid, inside⟩
          rw [starts, List.cons_append] at scanned
          rw [starts, List.cons_append, scanValue?_items solid inside, scanned]
          rfl

/-- An object is scanned member by member.  Its members are in order, so that each is put at the
end. -/
theorem scans_object {members : Members} (sorted : Sorted members)
    (each : ∀ member ∈ members, member.2.Scans) : (object members).Scans := by
  apply scans_of_succ
  intro steps limit rest shallow enough _
  rw [depth] at shallow
  simp only [print, List.length_append, List.length_singleton] at enough
  have same : (object members).print ++ rest = '{' :: (printMembers members ++ '}' :: rest) := by
    simp [print]
  rw [same]
  cases limit with
  | zero => cases shallow
  | succ limit =>
      cases members with
      | nil => rfl
      | cons member others =>
          have scanned :
              scanMembers? steps limit (printMembers (member :: others) ++ '}' :: rest) =
                some (member :: others, rest) :=
            scanMembers?_printMembers (List.cons_ne_nil member others) each rest
              (Nat.le_of_succ_le_succ shallow) (by omega)
          rcases printMembers_starts member others with ⟨more, starts⟩
          rw [starts, List.cons_append] at scanned
          rw [starts, List.cons_append, scanValue?_members, scanned, Option.map_some]
          dsimp only
          rw [ofMembers_of_sorted sorted]

/-- The text of a plain document is taken off the front of any text in which it ends. -/
theorem Plain.scans {json : Json} (plain : json.Plain) : json.Scans := by
  induction plain with
  | null => exact scans_null
  | bool value => exact scans_bool value
  | integer low high => exact scans_integer low high
  | string text => exact scans_string text
  | array plain each => exact scans_array plain each
  | object sorted _ each => exact scans_object sorted each

end Scanning

section Lines

theorem newline_notMem_toDigits (number : Nat) : '\n' ∉ Nat.toDigits 10 number := by
  intro mem
  cases Decimal.isDigit_of_mem_toDigits mem

theorem newline_ne_digit {value : Nat} (small : value < 16) : '\n' ≠ Hex.digit value := by
  intro same
  have written := Hex.isWritten_digit small
  rw [← same] at written
  cases written

theorem newline_notMem_escaped (character : Char) : '\n' ∉ escaped character := by
  unfold escaped
  iterate 4
    split
    · decide
  split
  · decide
  · rename_i other
    iterate 2
      split
      · decide
    split
    · rename_i control
      have high : '\n' ≠ Hex.digit (character.toNat / 16) := newline_ne_digit (by omega)
      have low : '\n' ≠ Hex.digit (character.toNat % 16) := newline_ne_digit (by omega)
      simp [high, low]
    · exact fun mem => other (List.mem_singleton.1 mem).symm

theorem newline_notMem_quoted (text : String) : '\n' ∉ quoted text := by
  simp [quoted, newline_notMem_escaped]

theorem newline_notMem_printItems {items : List Json} (each : ∀ item ∈ items, '\n' ∉ item.print) :
    '\n' ∉ printItems items := by
  induction items with
  | nil => exact List.not_mem_nil
  | cons item items ih =>
      rw [List.forall_mem_cons] at each
      cases items with
      | nil => exact each.1
      | cons next others => simpa [printItems, each.1] using ih each.2

theorem newline_notMem_printMembers {members : Members}
    (each : ∀ member ∈ members, '\n' ∉ member.2.print) : '\n' ∉ printMembers members := by
  induction members with
  | nil => exact List.not_mem_nil
  | cons member members ih =>
      rw [List.forall_mem_cons] at each
      cases members with
      | nil => simpa [printMembers, newline_notMem_quoted] using each.1
      | cons next others =>
          simpa [printMembers, newline_notMem_quoted, each.1] using ih each.2

theorem Plain.newline_notMem_print {json : Json} (plain : json.Plain) : '\n' ∉ json.print := by
  induction plain with
  | null => decide
  | bool value => cases value <;> decide
  | @integer value =>
      rw [print_integer]
      split
      · exact newline_notMem_toDigits _
      · simpa using newline_notMem_toDigits _
  | string text => exact newline_notMem_quoted text
  | array _ each => simpa [print] using newline_notMem_printItems each
  | object _ _ each => simpa [print] using newline_notMem_printMembers each

end Lines

/-- A plain document is printed as a text of the document. -/
theorem Plain.isTextOf_print {json : Json} (plain : json.Plain) : IsTextOf json.print json := by
  refine ⟨plain.newline_notMem_print, ?_⟩
  intro limit shallow
  have scanned : scanValue? (2 * json.print.length + 1) limit (json.print ++ []) =
      some (json, []) := plain.scans shallow (Nat.lt_succ_self _) trivial
  rw [List.append_nil] at scanned
  rw [parseWithin?, String.toList_ofList, scanned]
  rfl

end Json

namespace Value

theorem plain_int (type : IntType) (word : BitVec type.bits) :
    (Json.integer (type.value word)).Plain := by
  have low := word.le_two_mul_toInt
  have high := word.two_mul_toInt_lt
  have unsigned := word.isLt
  have narrow : 2 ^ type.bits ≤ 2 ^ 64 := by cases type <;> decide
  have power : ((2 ^ type.bits : Nat) : Int) = 2 ^ type.bits := by push_cast; rfl
  rw [← power] at low high
  rw [IntType.value]
  split
  · exact .integer (by omega) (by omega)
  · exact .integer (by omega) (by omega)

/-- Whatever the fields are called, their object lists them in order. -/
theorem plain_fields {fields : Fields} (each : ∀ field ∈ fields, field.2.toJson.Plain) :
    (Json.object (Json.ofMembers (fieldsToJson fields))).Plain := by
  refine .object (Json.sorted_ofMembers _) ?_
  intro member mem
  have held := Json.mem_ofMembers mem
  rw [fieldsToJson_eq_map] at held
  rcases List.mem_map.1 held with ⟨field, fieldMem, rfl⟩
  exact each field fieldMem

/-- The document of any value is plain. -/
theorem plain_toJson (value : Value) : value.toJson.Plain := by
  induction value with
  | bool value => exact .bool value
  | int type word => exact plain_int type word
  | natural | integer | text | bytes | address => exact .string _
  | absent => exact .null
  | present content ih => exact ih
  | list items ih | outputList items _ ih _ =>
      rw [toJson, itemsToJson_eq_map]
      exact .array (List.forall_mem_map.2 ih)
  | struct fields ih => exact plain_fields ih
  | enum discriminant fields ih =>
      have order : "discriminant" < "fields" := by decide
      have range := discriminant.toNat_lt
      refine .object (List.pairwise_pair.2 order) ?_
      simp only [List.forall_mem_cons]
      exact ⟨.integer (by omega) (by omega), plain_fields ih, List.forall_mem_nil _⟩

end Value

end ContractAbi
