import ContractAbi.Command.Run
import ContractAbi.Proofs.Except
import ContractAbi.Proofs.TypeExpr.Letters
import Mathlib

/-!
# A type and a document in one text

A typed argument is a type and a document with an equals sign between them.  A document may
have such signs as well, but no type has one, so the first sign of the text is the only one
that can stand between a type and something else, and nothing is lost by looking at
no other.
-/

namespace ContractAbi

theorem TypeExpr.equals_notMem_of_parse {text : String} {type : TypeExpr}
    (parsed : parse text = .ok type) : '=' ∉ text.toList := by
  intro mem
  have known := isLetter_of_parse parsed _ mem
  cases known

namespace Command

theorem splitAtEquals?_append {left : List Char} (absent : '=' ∉ left) (right : List Char) :
    splitAtEquals? (left ++ '=' :: right) = some (left, right) := by
  induction left with
  | nil => rfl
  | cons character left ih =>
      rw [List.mem_cons, not_or] at absent
      rw [List.cons_append, splitAtEquals?, if_neg (Ne.symm absent.1), ih absent.2]
      rfl

/-- The text is split at its first equals sign, if it has one. -/
theorem splitAtEquals?_eq_some_iff {text left right : List Char} :
    splitAtEquals? text = some (left, right) ↔ text = left ++ '=' :: right ∧ '=' ∉ left := by
  constructor
  · intro found
    induction text generalizing left with
    | nil => cases found
    | cons character text ih =>
        rw [splitAtEquals?] at found
        split at found
        · rename_i sign
          cases found
          exact ⟨by rw [sign, List.nil_append], List.not_mem_nil⟩
        · rename_i other
          rcases Option.map_eq_some_iff.1 found with ⟨⟨front, back⟩, later, same⟩
          cases same
          rcases ih later with ⟨rfl, absent⟩
          exact ⟨rfl, List.not_mem_cons_of_ne_of_not_mem (Ne.symm other) absent⟩
  · rintro ⟨rfl, absent⟩
    exact splitAtEquals?_append absent right

theorem toList_append_equals (left right : String) :
    (left ++ "=" ++ right).toList = left.toList ++ '=' :: right.toList := by
  rw [String.toList_append, String.toList_append, List.append_assoc]
  rfl

theorem splitTyped_eq_ok_iff {flag input left right : String} :
    splitTyped flag input = .ok (left, right) ↔
      input = left ++ "=" ++ right ∧ '=' ∉ left.toList := by
  rw [← String.toList_inj, toList_append_equals, ← splitAtEquals?_eq_some_iff, splitTyped]
  split
  · rename_i front back found
    rw [found]
    simp [← String.toList_inj]
  · rename_i missing
    simp [missing]

theorem splitTyped_of_parse {typeText : String} {type : TypeExpr}
    (parsed : TypeExpr.parse typeText = .ok type) (flag jsonText : String) :
    splitTyped flag (typeText ++ "=" ++ jsonText) = .ok (typeText, jsonText) :=
  splitTyped_eq_ok_iff.2 ⟨rfl, TypeExpr.equals_notMem_of_parse parsed⟩

theorem parseTyped_of_parse {typeText jsonText : String} {type : TypeExpr} {json : Json}
    (typeRead : TypeExpr.parse typeText = .ok type) (jsonRead : Json.parse? jsonText = some json)
    (flag : String) : parseTyped flag (typeText ++ "=" ++ jsonText) = .ok (type, json) := by
  have document : parseJson flag jsonText = .ok json := by rw [parseJson, jsonRead]
  simp only [parseTyped, bind_eq_ok_iff]
  exact ⟨_, splitTyped_of_parse typeRead flag jsonText, _, mapError_eq_ok_iff.2 typeRead, _,
    document, rfl⟩

theorem parseJson_eq_ok_iff {flag text : String} {json : Json} :
    parseJson flag text = .ok json ↔ Json.parse? text = some json := by
  rw [parseJson]
  split
  · rename_i found
    simp [found]
  · rename_i missing
    simp [missing]

/-- A typed argument is read exactly if it can be taken apart at some equals sign into a type
and a document. -/
theorem parseTyped_eq_ok_iff {flag input : String} {type : TypeExpr} {json : Json} :
    parseTyped flag input = .ok (type, json) ↔
      ∃ typeText jsonText, input = typeText ++ "=" ++ jsonText ∧
        TypeExpr.parse typeText = .ok type ∧ Json.parse? jsonText = some json := by
  constructor
  · intro success
    simp only [parseTyped, bind_eq_ok_iff] at success
    rcases success with ⟨⟨typeText, jsonText⟩, parted, _, typeRead, _, jsonRead, ⟨⟩⟩
    exact ⟨typeText, jsonText, (splitTyped_eq_ok_iff.1 parted).1, mapError_eq_ok_iff.1 typeRead,
      parseJson_eq_ok_iff.1 jsonRead⟩
  · rintro ⟨typeText, jsonText, rfl, typeRead, jsonRead⟩
    exact parseTyped_of_parse typeRead jsonRead flag

/-- No type has an equals sign, so a type with any text behind such a sign is split into these
two.  If the text before the first sign is no type, no text before another one is a type.
So a typed argument is refused only if it cannot be taken apart at any of its signs. -/
theorem splitTyped_exact (flag : String) :
    (∀ text type, TypeExpr.parse text = .ok type → '=' ∉ text.toList) ∧
      (∀ typeText jsonText type, TypeExpr.parse typeText = .ok type →
        splitTyped flag (typeText ++ "=" ++ jsonText) = .ok (typeText, jsonText)) ∧
      (∀ left right, '=' ∉ left.toList → (∀ type, TypeExpr.parse left ≠ .ok type) →
        splitTyped flag (left ++ "=" ++ right) = .ok (left, right) ∧
          ∀ front back, left ++ "=" ++ right = front ++ "=" ++ back →
            ∀ type, TypeExpr.parse front ≠ .ok type) ∧
      ∀ input type json, parseTyped flag input = .ok (type, json) ↔
        ∃ typeText jsonText, input = typeText ++ "=" ++ jsonText ∧
          TypeExpr.parse typeText = .ok type ∧ Json.parse? jsonText = some json := by
  refine ⟨fun _ _ => TypeExpr.equals_notMem_of_parse, ?_, ?_, fun _ _ _ => parseTyped_eq_ok_iff⟩
  · intro typeText jsonText type parsed
    exact splitTyped_of_parse parsed flag jsonText
  · intro left right noSign untyped
    have first : splitTyped flag (left ++ "=" ++ right) = .ok (left, right) :=
      splitTyped_eq_ok_iff.2 ⟨rfl, noSign⟩
    refine ⟨first, ?_⟩
    intro front back same type parsed
    have again := splitTyped_of_parse parsed flag back
    rw [← same, first] at again
    cases again
    exact untyped type parsed

/-- A document with signs of its own, and a type that stands behind the first sign. -/
theorem splitTyped_exact_signs :
    let typed := " List<string >" ++ "=" ++ "[\"a=b\", \"=\"]"
    let untyped := "u9" ++ "=" ++ "u8=7"
    TypeExpr.parse " List<string >" = .ok (.list .text) ∧ '=' ∉ " List<string >".toList ∧
      splitTyped "--arg" typed = .ok (" List<string >", "[\"a=b\", \"=\"]") ∧
      parseTyped "--arg" typed =
        .ok (.list .text, .array [.string "a=b", .string "="]) ∧
      '=' ∉ "u9".toList ∧ (∀ type, TypeExpr.parse "u9" ≠ .ok type) ∧
      splitTyped "--arg" untyped = .ok ("u9", "u8=7") ∧
      untyped = "u9=u8" ++ "=" ++ "7" ∧ ∀ type, TypeExpr.parse "u9=u8" ≠ .ok type := by
  intro typed untyped
  have typeRead : TypeExpr.parse " List<string >" = .ok (.list .text) := by cbv
  have jsonRead : Json.parse? "[\"a=b\", \"=\"]" =
      some (.array [.string "a=b", .string "="]) := by cbv
  have refused : TypeExpr.parse "u9" = .error ⟨0, .unknownType "u9"⟩ := by cbv
  have noType : ∀ type, TypeExpr.parse "u9" ≠ .ok type := by simp [refused]
  rcases splitTyped_exact "--arg" with ⟨noSign, exactly, alone, read⟩
  have same : untyped = "u9=u8" ++ "=" ++ "7" := by decide
  have start : '=' ∉ "u9".toList := by decide
  rcases alone "u9" "u8=7" start noType with ⟨first, others⟩
  exact ⟨typeRead, noSign _ _ typeRead, exactly _ _ _ typeRead,
    (read _ _ _).2 ⟨_, _, rfl, typeRead, jsonRead⟩, start, noType, first, same, others _ _ same⟩

end Command

end ContractAbi
