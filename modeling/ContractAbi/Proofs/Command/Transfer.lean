import ContractAbi.Proofs.Arguments.TextRoundTrip
import ContractAbi.Proofs.Command.Agreement
import ContractAbi.Proofs.Command.Reading
import ContractAbi.Proofs.Command.Report
import ContractAbi.Proofs.Command.TypedText
import Mathlib

/-!
# What one command writes another reads

Arguments are given as types with documents, and written as one text.  Read with the
types alone, the text gives a row for each argument, in order, in which the document of its
value is shown: null for an optional argument that was left out, and an array for a variadic
one.
-/

namespace ContractAbi

namespace Command

/-- A type and a document as they are given on the command line. -/
structure Typed where
  typeText : String
  jsonText : String
  type : TypeExpr
  json : Json
  typeRead : TypeExpr.parse typeText = .ok type
  jsonRead : Json.parse? jsonText = some json

/-- A type and a document that has a value of the type. -/
structure Given extends Typed where
  value : Value
  valueRead : type.read json = .ok value

/-- What may be given after the single arguments. -/
inductive Tail where
  | none
  /-- An optional argument that null leaves out. -/
  | absent (typed : Typed) (null : typed.json = .null)
  | present (given : Given) (notNull : given.json ≠ .null)
  /-- An array with a value of the type for each of its documents. -/
  | variadic (typed : Typed) (documents : List Json) (items : List Value)
      (array : typed.json = .array documents)
      (itemsRead : List.Forall₂ (fun document item => typed.type.read document = .ok item)
        documents items)

/-- Single arguments, and at most one that is optional or variadic after them. -/
structure Call where
  given : List Given
  tail : Tail

def Typed.text (typed : Typed) : String :=
  typed.typeText ++ "=" ++ typed.jsonText

namespace Tail

def optional? : Tail → Option Typed
  | absent typed _ => some typed
  | present given _ => some given.toTyped
  | none | variadic .. => Option.none

def variadic? : Tail → Option Typed
  | variadic typed .. => some typed
  | none | absent .. | present .. => Option.none

def values : Tail → List Value
  | none | absent .. => []
  | present given _ => [given.value]
  | variadic _ _ items _ _ => items

def labels : Tail → List String
  | none => []
  | absent typed _ => ["optional " ++ typed.type.toText]
  | present given _ => ["optional " ++ given.type.toText]
  | variadic typed .. => ["variadic " ++ typed.type.toText]

def documents : Tail → List Json
  | none => []
  | absent .. => [.null]
  | present given _ => [given.value.toJson]
  | variadic _ _ items _ _ => [.array (items.map Value.toJson)]

def arguments : Tail → List Argument
  | none => []
  | absent .. => [.absent]
  | present given _ => [.present (.single given.value)]
  | variadic _ _ items _ _ => [.variadic (items.map .single) Option.none]

end Tail

namespace Call

def singleTypes (call : Call) : List TypeExpr := call.given.map (·.type)

def optional? (call : Call) : Option TypeExpr := call.tail.optional?.map (·.type)

def variadic? (call : Call) : Option TypeExpr := call.tail.variadic?.map (·.type)

def types (call : Call) : List TypeExpr :=
  call.singleTypes ++ call.optional?.toList ++ call.variadic?.toList

def targets (call : Call) : List Argument :=
  targetsOf call.singleTypes call.optional? call.variadic?

def labels (call : Call) : List String :=
  call.given.map (·.type.toText) ++ call.tail.labels

def values (call : Call) : List Value := call.given.map Given.value ++ call.tail.values

def documents (call : Call) : List Json :=
  call.given.map (·.value.toJson) ++ call.tail.documents

def arguments (call : Call) : List Argument :=
  call.given.map (.single ·.value) ++ call.tail.arguments

/-- The command line that writes the arguments, with the default separator. -/
def writing (call : Call) : SerializeOptions :=
  { arguments := call.given.map (·.text), optional := call.tail.optional?.map Typed.text
    variadic := call.tail.variadic?.map Typed.text, separator := defaultSeparator }

/-- The command line that reads them again, with the same types. -/
def reading (call : Call) (maxLength : Nat) (data : String) : DeserializeOptions :=
  { types := call.given.map (·.typeText), optional := call.tail.optional?.map Typed.typeText
    variadic := call.tail.variadic?.map Typed.typeText, data, separator := defaultSeparator
    maxLength }

end Call

section Writing

theorem parseTyped_text (typed : Typed) (flag : String) :
    parseTyped flag typed.text = .ok (typed.type, typed.json) :=
  parseTyped_of_parse typed.typeRead typed.jsonRead flag

theorem readValue_of_read {type : TypeExpr} {json : Json} {value : Value}
    (read : type.read json = .ok value) (flag : String) : readValue flag type json = .ok value := by
  rw [readValue, read]
  rfl

theorem parseArgument_text (given : Given) (flag : String) :
    parseArgument flag given.text = .ok given.value := by
  rw [parseArgument, bind_eq_ok_iff]
  exact ⟨_, parseTyped_text given.toTyped flag, readValue_of_read given.valueRead flag⟩

theorem optionalArgument_text_of_null {typed : Typed} (null : typed.json = .null) :
    optionalArgument typed.text = .ok .absent := by
  rw [optionalArgument, bind_eq_ok_iff]
  refine ⟨_, parseTyped_text typed _, ?_⟩
  simp only [null]
  rfl

theorem optionalArgument_text {given : Given} (notNull : given.json ≠ .null) :
    optionalArgument given.text = .ok (.present (.single given.value)) := by
  rw [optionalArgument, bind_eq_ok_iff]
  refine ⟨_, parseTyped_text given.toTyped _, ?_⟩
  dsimp only
  split
  · rename_i null
    exact absurd null notNull
  · rw [readValue_of_read given.valueRead]
    rfl

theorem variadicArgument_text {typed : Typed} {documents : List Json} {items : List Value}
    (array : typed.json = .array documents)
    (itemsRead : List.Forall₂ (fun document item => typed.type.read document = .ok item)
      documents items) :
    variadicArgument typed.text = .ok (.variadic (items.map .single) none) := by
  have read : documents.mapM (readValue "--variadic" typed.type) = .ok items :=
    mapM_eq_ok_of_forall₂ (itemsRead.imp fun _ _ itemRead => readValue_of_read itemRead _)
  rw [variadicArgument, bind_eq_ok_iff]
  refine ⟨_, parseTyped_text typed _, ?_⟩
  simp only [array, read]
  rfl

/-- One of the two lists is empty. -/
theorem mapM_tail (tail : Tail) : ∃ optional variadic,
    (tail.optional?.map Typed.text).toList.mapM optionalArgument = .ok optional ∧
      (tail.variadic?.map Typed.text).toList.mapM variadicArgument = .ok variadic ∧
      optional ++ variadic = tail.arguments := by
  cases tail with
  | none => exact ⟨[], [], rfl, rfl, rfl⟩
  | absent typed null =>
      exact ⟨[.absent], [], mapM_eq_ok_of_forall₂
        (.cons (optionalArgument_text_of_null null) .nil), rfl, rfl⟩
  | present given notNull =>
      exact ⟨[.present (.single given.value)], [], mapM_eq_ok_of_forall₂
        (.cons (optionalArgument_text notNull) .nil), rfl, rfl⟩
  | variadic typed documents items array itemsRead =>
      exact ⟨[], [.variadic (items.map .single) none], rfl, mapM_eq_ok_of_forall₂
        (.cons (variadicArgument_text array itemsRead) .nil), rfl⟩

/-- The command prints the parts of the arguments. -/
theorem runSerialize_writing {call : Call} {format : OutputFormat} {printed : Bytes}
    (success : runSerialize call.writing format = .ok printed) :
    ∃ parts, ContractAbi.serialize call.arguments = .ok parts ∧
      Report.ShowsData (joinParts defaultSeparator parts) parts.length format printed := by
  have singles : (call.given.map (·.text)).mapM
      (fun input => do return Argument.single (← parseArgument "--arg" input)) =
        Except.ok (call.given.map (.single ·.value)) := by
    apply mapM_eq_ok_of_forall₂
    rw [List.forall₂_map_left_iff, List.forall₂_map_right_iff, List.forall₂_same]
    intro given _
    rw [parseArgument_text]
    rfl
  rcases mapM_tail call.tail with ⟨optional, variadic, optionalRead, variadicRead, together⟩
  simp only [runSerialize, Call.writing, singles, optionalRead, variadicRead, bind_eq_ok_iff,
    mapError_eq_ok_iff, Except.ok.injEq, exists_eq_left', List.append_assoc, together] at success
  rcases success with ⟨parts, written, ⟨⟩⟩
  exact ⟨parts, written,
    Report.showsData_serialized (notMem_joinParts rfl parts) parts.length format⟩

end Writing

section Reading

/-- How an argument is written, what it is read into, and the document that shows it. -/
structure Entry where
  argument : Argument
  target : Argument
  document : Json

structure Entry.Transfers (maxLength : Nat) (entry : Entry) : Prop where
  fits : entry.argument.Fits maxLength entry.target
  document : (collapse (entry.argument.into entry.target)).toJson = entry.document

def Given.entry (given : Given) : Entry :=
  ⟨.single given.value, .single given.type.target, given.value.toJson⟩

def Tail.entries : Tail → List Entry
  | none => []
  | absent typed _ => [⟨.absent, .present (.single typed.type.target), .null⟩]
  | present given _ =>
    [⟨.present (.single given.value), .present (.single given.type.target), given.value.toJson⟩]
  | variadic typed _ items _ _ =>
    [⟨.variadic (items.map .single) Option.none,
      .variadic [] (some (.single typed.type.target)), .array (items.map Value.toJson)⟩]

def Call.entries (call : Call) : List Entry :=
  call.given.map Given.entry ++ call.tail.entries

theorem map_argument_entries (call : Call) : call.entries.map Entry.argument = call.arguments := by
  rcases call with ⟨given, tail⟩
  cases tail <;> simp [Call.entries, Call.arguments, Tail.entries, Tail.arguments, Given.entry]

theorem map_target_entries (call : Call) :
    call.entries.map Entry.target = call.targets := by
  rcases call with ⟨given, tail⟩
  cases tail <;> simp [Call.entries, Call.targets, Call.singleTypes, Call.optional?, Call.variadic?,
    Tail.entries, Tail.optional?, Tail.variadic?, Given.entry, targetsOf]

theorem map_document_entries (call : Call) : call.entries.map Entry.document = call.documents := by
  rcases call with ⟨given, tail⟩
  cases tail <;> simp [Call.entries, Call.documents, Tail.entries, Tail.documents, Given.entry]

theorem itemsInto_entries (entries : List Entry) :
    Argument.itemsInto (entries.map Entry.argument) (entries.map Entry.target) =
      entries.map fun entry => entry.argument.into entry.target := by
  induction entries with
  | nil => rfl
  | cons entry entries ih =>
      rw [List.map_cons, List.map_cons, Argument.itemsInto, ih, List.map_cons]

section Values

variable {maxLength : Nat} {type : TypeExpr}

theorem fits_single {value : Value} (typed : value.HasType type)
    (wide : ∀ item, type = .list item → item.isZeroWidth = false)
    (short : ∀ length ∈ value.prefixes .topLevel, length ≤ maxLength) :
    (Argument.single value).Fits maxLength (.single type.target) :=
  .single (roundTrips_of_fits typed.fits short fun _ => typed.ne_nil_of_mem_items wide)

theorem parts_single_ne_nil (value : Value) : (Argument.single value).parts ≠ .ok [] := by
  intro empty
  rcases Argument.parts_single_eq_ok empty with ⟨_, _, ⟨⟩⟩

theorem toJson_copiesInto {items : List Value} (typed : ∀ item ∈ items, item.HasType type) :
    Value.itemsToJson (collapseItems
      (Argument.copiesInto (.single type.target) (items.map .single))) =
        items.map Value.toJson := by
  induction items with
  | nil => rfl
  | cons item items ih =>
      rw [List.forall_mem_cons] at typed
      rw [List.map_cons, Argument.copiesInto, Argument.into, collapseItems, collapse,
        Value.itemsToJson, typed.1.toJson_into, ih typed.2, List.map_cons]

end Values

theorem Given.typed (given : Given) : given.value.HasType given.type :=
  given.type.readsTyped given.json given.value given.valueRead

/-- Every argument of a call fits the target of its type, which then shows its document. -/
theorem transfers_of_mem_entries {call : Call} {maxLength : Nat}
    (wide : ∀ type ∈ call.types, ∀ item, type = .list item → item.isZeroWidth = false)
    (short : ∀ value ∈ call.values, ∀ length ∈ value.prefixes .topLevel, length ≤ maxLength) :
    ∀ entry ∈ call.entries, entry.Transfers maxLength := by
  rcases call with ⟨given, tail⟩
  rw [Call.entries, List.forall_mem_append]
  rw [Call.values, List.forall_mem_append, List.forall_mem_map] at short
  rw [Call.types, List.append_assoc, List.forall_mem_append, Call.singleTypes,
    List.forall_mem_map] at wide
  refine ⟨?_, ?_⟩
  · rw [List.forall_mem_map]
    intro single mem
    exact ⟨fits_single single.typed (wide.1 single mem) (short.1 single mem),
      single.typed.toJson_into⟩
  · cases tail with
    | none => simp [Tail.entries]
    | absent typed _ =>
        rw [Tail.entries, List.forall_mem_singleton]
        exact ⟨.absentPresent _, rfl⟩
    | present content _ =>
        have fits := fits_single content.typed (wide.2 _ List.mem_cons_self)
          (short.2 _ List.mem_cons_self)
        rw [Tail.entries, List.forall_mem_singleton]
        exact ⟨.present fits (parts_single_ne_nil _), content.typed.toJson_into⟩
    | variadic typed documents items _ itemsRead =>
        have itemsTyped : ∀ item ∈ items, item.HasType typed.type :=
          ((List.forall₂_and_left _ _).1 (itemsRead.flip.imp fun item document itemRead =>
            ⟨typed.type.readsTyped document item itemRead, itemRead⟩)).1
        rw [Tail.entries, List.forall_mem_singleton]
        refine ⟨.variadic _ _ ?_ ?_, ?_⟩
        · rw [List.forall_mem_map]
          intro item mem
          exact fits_single (itemsTyped item mem) (wide.2 _ List.mem_cons_self) (short.2 item mem)
        · rw [List.forall_mem_map]
          exact fun item _ => parts_single_ne_nil item
        · rw [Argument.into, collapse, Value.toJson, toJson_copiesInto itemsTyped]

/-- The arguments are read into the targets of their types. -/
theorem deserializeText_of_transfers {call : Call} {maxLength : Nat} {parts : List Bytes}
    (transfers : ∀ entry ∈ call.entries, entry.Transfers maxLength)
    (written : ContractAbi.serialize call.arguments = .ok parts) (nonempty : parts ≠ []) :
    deserializeText defaultSeparator maxLength call.targets (joinParts defaultSeparator parts) =
      (call.entries.map fun entry => entry.argument.into entry.target, none) := by
  have frames : Frames defaultSeparator.toList := ⟨'@', by decide, by decide⟩
  rw [← map_argument_entries] at written
  rw [← map_target_entries]
  rw [ContractAbi.serialize, bind_eq_ok_iff] at written
  rcases written with ⟨⟨⟩, placed, written⟩
  have fits : List.Forall₂ (Argument.Fits maxLength) (call.entries.map Entry.argument)
      (call.entries.map Entry.target) := by
    rw [List.forall₂_map_left_iff, List.forall₂_map_right_iff, List.forall₂_same]
    exact fun entry mem => (transfers entry mem).fits
  have filled := fillFrom_of_fits fits placed written 0
  rw [itemsInto_entries] at filled
  simp only [deserializeText, splitParts_joinParts frames nonempty, ContractAbi.deserialize,
    Argument.checkPlacement_of_fits fits placed, filled]

theorem mapM_parseType {flag : String} (given : List Given) :
    (given.map (·.typeText)).mapM (parseType flag) = .ok (given.map (·.type)) := by
  apply mapM_eq_ok_of_forall₂
  rw [List.forall₂_map_left_iff, List.forall₂_map_right_iff, List.forall₂_same]
  exact fun single _ => mapError_eq_ok_iff.2 single.typeRead

theorem optional_mapM_parseType {flag : String} (typed : Option Typed) :
    (typed.map Typed.typeText).mapM (parseType flag) = .ok (typed.map Typed.type) := by
  cases typed with
  | none => rfl
  | some typed => exact bind_eq_ok_iff.2 ⟨_, mapError_eq_ok_iff.2 typed.typeRead, rfl⟩

theorem labelsOf_types (call : Call) :
    labelsOf call.singleTypes call.optional? call.variadic? = call.labels := by
  rcases call with ⟨given, tail⟩
  cases tail <;> simp [labelsOf, Call.labels, Call.singleTypes, Call.optional?, Call.variadic?,
    Tail.labels, Tail.optional?, Tail.variadic?]

theorem length_labels (call : Call) : call.labels.length = call.entries.length := by
  rcases call with ⟨given, tail⟩
  cases tail <;> simp [Call.labels, Call.entries, Tail.labels, Tail.entries]

theorem Typed.newline_notMem_toText (typed : Typed) : '\n' ∉ typed.type.toText.toList := by
  rw [TypeExpr.toText, String.toList_ofList]
  exact TypeExpr.newline_notMem_print (TypeExpr.wellFormed_of_parse typed.typeRead)

theorem newline_notMem_labels (call : Call) : ∀ label ∈ call.labels, '\n' ∉ label.toList := by
  rcases call with ⟨given, tail⟩
  rw [Call.labels, List.forall_mem_append, List.forall_mem_map]
  refine ⟨fun single _ => single.newline_notMem_toText, ?_⟩
  cases tail with
  | none => exact List.forall_mem_nil _
  | absent typed _ => simp [Tail.labels, typed.newline_notMem_toText]
  | present given _ => simp [Tail.labels, given.newline_notMem_toText]
  | variadic typed => simp [Tail.labels, typed.newline_notMem_toText]

end Reading

/-- What the command that writes arguments prints, the command that reads them takes back
with the same types: it shows a row for each argument, in order, with the document of its
value. -/
theorem runDeserialize_runSerialize (call : Call) {maxLength : Nat} {format : OutputFormat}
    {printed : Bytes} (success : runSerialize call.writing format = .ok printed)
    (wide : ∀ type ∈ call.types, ∀ item, type = .list item → item.isZeroWidth = false)
    (short : ∀ value ∈ call.values, ∀ length ∈ value.prefixes .topLevel, length ≤ maxLength) :
    ∃ parts, ContractAbi.serialize call.arguments = .ok parts ∧
      Report.ShowsData (joinParts defaultSeparator parts) parts.length format printed ∧
      (parts ≠ [] → ∃ rows : List Report.Row,
        rows.map Report.Row.index = List.range rows.length ∧
          rows.map Report.Row.label = call.labels ∧
          rows.map Report.Row.document = call.documents ∧
          ∀ text input shown, Carries text input (joinParts defaultSeparator parts) →
            ∃ output, runDeserialize (call.reading maxLength text) shown input = .ok output ∧
              Report.Shows rows shown output) := by
  rcases runSerialize_writing success with ⟨parts, written, dataShown⟩
  refine ⟨parts, written, dataShown, ?_⟩
  intro nonempty
  have transfers := transfers_of_mem_entries wide short
  have read := deserializeText_of_transfers transfers written nonempty
  let outputs := call.entries.map fun entry => entry.argument.into entry.target
  let labelled := call.labels.zip (outputs.map collapse)
  have lengths : call.labels.length = (outputs.map collapse).length := by
    rw [length_labels, List.length_map, List.length_map]
  have labels : labelled.map Prod.fst = call.labels := List.map_fst_zip lengths.le
  have documents : (labelled.map Prod.snd).map Value.toJson = call.documents := calc
    _ = (outputs.map collapse).map Value.toJson := by rw [List.map_snd_zip lengths.ge]
    _ = call.entries.map Entry.document := by
        rw [List.map_map, List.map_map]
        exact List.map_congr_left fun entry mem => (transfers entry mem).document
    _ = call.documents := map_document_entries call
  refine ⟨Report.rowsOf labelled, Report.map_index_rowsOf labelled, ?_, ?_, ?_⟩
  · rw [Report.map_label_rowsOf, labels]
  · rw [Report.map_document_rowsOf, documents]
  · intro text input shown carries
    refine ⟨Report.arguments labelled shown, ?_, Report.shows_arguments ?_ shown⟩
    · simp only [runDeserialize, bind_eq_ok_iff]
      refine ⟨_, mapM_parseType call.given, _, optional_mapM_parseType call.tail.optional?, _,
        optional_mapM_parseType call.tail.variadic?, _, readText_of_carries carries, ?_⟩
      have sameLabels := labelsOf_types call
      simp only [Call.targets, Call.singleTypes, Call.optional?, Call.variadic?] at read sameLabels
      simp only [Call.reading, String.ofList_toList, read, sameLabels]
      rfl
    · rw [labels]
      exact newline_notMem_labels call

/-- A list with an absent item, and two numbers of which one takes no bytes. -/
def mixedCall : Call where
  given :=
    [⟨⟨" list<option<bool>>", "[true, null]", .list (.option .bool), .array [.bool true, .null],
        by cbv, by cbv⟩, .list [.present (.bool true), .absent], by rfl⟩]
  tail := .variadic
    ⟨"BigUint", "[\"7\", \"0\"]", .natural, .array [.string "7", .string "0"], by cbv, by cbv⟩
    [.string "7", .string "0"] [.natural 7, .natural 0] rfl (.cons rfl (.cons rfl .nil))

theorem runDeserialize_runSerialize_mixed :
    runSerialize mixedCall.writing .raw = .ok (Utf8.encode "010100@07@".toList) ∧
      (∀ type ∈ mixedCall.types, ∀ item, type = .list item → item.isZeroWidth = false) ∧
      (∀ value ∈ mixedCall.values, ∀ length ∈ value.prefixes .topLevel, length ≤ 0) ∧
      ∃ rows : List Report.Row,
        rows.map Report.Row.index = List.range rows.length ∧
          rows.map Report.Row.label = ["List<Option<bool>>", "variadic BigUint"] ∧
          rows.map Report.Row.document =
            [.array [.bool true, .null], .array [.string "7", .string "0"]] ∧
          ∃ output, runDeserialize (mixedCall.reading 0 "010100@07@") .json [] = .ok output ∧
            Report.Shows rows .json output := by
  have success : runSerialize mixedCall.writing .raw =
      .ok (Utf8.encode "010100@07@".toList) := by cbv
  have wide : ∀ type ∈ mixedCall.types, ∀ item, type = .list item → item.isZeroWidth = false := by
    have types : mixedCall.types = [.list (.option .bool), .natural] := by rfl
    rw [types]
    simp [TypeExpr.isZeroWidth]
  have short : ∀ value ∈ mixedCall.values, ∀ length ∈ value.prefixes .topLevel, length ≤ 0 := by
    decide
  refine ⟨success, wide, short, ?_⟩
  rcases runDeserialize_runSerialize mixedCall success wide short with
    ⟨parts, written, _, transfers⟩
  have known : ContractAbi.serialize mixedCall.arguments = .ok [[1, 1, 0], [7], []] := by rfl
  rw [known, Except.ok.injEq] at written
  subst written
  rcases transfers (List.cons_ne_nil _ _) with ⟨rows, indices, labels, documents, read⟩
  exact ⟨rows, indices, labels, documents, read _ _ _ (Or.inl rfl)⟩

end Command

end ContractAbi
