import ContractAbi.Command.Report
import ContractAbi.Proofs.Command.Table
import ContractAbi.Proofs.Json.Printing

/-!
# What is printed of data and of arguments

The data of arguments, and the arguments that are read from it, are printed in four forms.
In each the data stands as it is or as a string, and every argument has a row with its
position, its label and a text that is read as the document of its value.
-/

namespace ContractAbi.Report

open Json (IsTextOf)

/-- Lines with a line feed at the end of each. -/
def inLines (lines : List (List Char)) : Bytes :=
  Utf8.encode (lines.flatMap fun line => line ++ ['\n'])

/-- The texts as the items of an array. -/
def listed (items : List (List Char)) : List Char :=
  ['['] ++ [','].intercalate items ++ [']']

/-- What is shown of one argument. -/
structure Row where
  index : Nat
  label : String
  document : Json

namespace Row

def IsObject (row : Row) (text : List Char) : Prop :=
  ∃ label document, IsTextOf label (.string row.label) ∧ IsTextOf document row.document ∧
    text = "\x7b\"index\":".toList ++ (toString row.index).toList ++ ",\"type\":".toList ++ label ++
      ",\"value\":".toList ++ document ++ ['}']

def IsCells (row : Row) (cells : List String) : Prop :=
  ∃ document, IsTextOf document row.document ∧
    cells = [toString row.index, row.label, String.ofList document]

def IsSentence (row : Row) (line : List Char) : Prop :=
  ∃ document, IsTextOf document row.document ∧
    line = (toString row.index).toList ++ ": ".toList ++ row.label.toList ++ " = ".toList ++ document

end Row

/-- The output shows the rows in their order, and nothing else. -/
inductive Shows (rows : List Row) : OutputFormat → Bytes → Prop where
  | json {items} : List.Forall₂ Row.IsObject rows items → Shows rows .json (inLines [listed items])
  | table {cells lines} : List.Forall₂ Row.IsCells rows cells →
      Table.IsTable ["#", "TYPE", "VALUE"] cells lines →
      Shows rows .table (inLines lines)
  | pretty {lines} : List.Forall₂ Row.IsSentence rows lines → Shows rows .pretty (inLines lines)
  | raw {items} : List.Forall₂ (fun row item => IsTextOf item row.document) rows items →
      Shows rows .raw (inLines [listed items])

/-- The output shows the data, and of how many parts it is except where the data stands alone. -/
inductive ShowsData (data : String) (parts : Nat) : OutputFormat → Bytes → Prop where
  | json {text} : IsTextOf text (.string data) →
      ShowsData data parts .json (inLines ["\x7b\"data\":".toList ++ text ++ ",\"parts\":".toList ++
        (toString parts).toList ++ ['}']])
  | table {lines} : Table.IsTable ["PARTS", "DATA"] [[toString parts, data]] lines →
      ShowsData data parts .table (inLines lines)
  | pretty : ShowsData data parts .pretty (inLines [data.toList])
  | raw : ShowsData data parts .raw (Utf8.encode data.toList)

section Lines

theorem intercalate_newline {lines : List (List Char)} (nonempty : lines ≠ []) :
    ['\n'].intercalate lines ++ ['\n'] = lines.flatMap fun line => line ++ ['\n'] := by
  induction lines with
  | nil => exact absurd rfl nonempty
  | cons line lines ih =>
      cases lines with
      | nil => simp
      | cons next lines =>
          rw [List.intercalate_cons_cons, List.append_assoc, ih (List.cons_ne_nil _ _)]
          rfl

theorem line_eq_inLines (text : List Char) : line text = inLines [text] := by
  rw [line, inLines, List.flatMap_singleton]

theorem line_render (header : List String) (rows : List (List String)) :
    line (Table.render header rows) = inLines (Table.lines header rows) := by
  rw [line, Table.render, intercalate_newline (by simp [Table.lines]), inLines]

theorem inLines_cons (line : List Char) (lines : List (List Char)) :
    inLines (line :: lines) = inLines [line] ++ inLines lines := by
  simp [inLines, Utf8.encode]

end Lines

section Documents

theorem print_array (items : List Json) :
    (Json.array items).print = listed (items.map Json.print) := by
  have inside : Json.printItems items = [','].intercalate (items.map Json.print) := by
    induction items with
    | nil => rfl
    | cons item items ih =>
        cases items with
        | nil => simp [Json.printItems]
        | cons next items =>
            rw [List.map_cons] at ih
            simp [Json.printItems, ih, List.intercalate_cons_cons]
  rw [Json.print, inside, listed]

theorem isTextOf_quoted (text : String) : IsTextOf (Json.quoted text) (.string text) :=
  (Json.Plain.string text).isTextOf_print

theorem isTextOf_toJson (value : Value) : IsTextOf value.toJson.print value.toJson :=
  value.plain_toJson.isTextOf_print

end Documents

/-- The data is shown as it is, if it is a single line. -/
theorem showsData_serialized {data : String} (single : '\n' ∉ data.toList) (parts : Nat)
    (format : OutputFormat) : ShowsData data parts format (serialized data parts format) := by
  cases format with
  | json =>
      have opening : "\x7b\"data\":".toList = ['{'] ++ Json.quoted "data" ++ [':'] := by decide
      have count : ",\"parts\":".toList = [','] ++ Json.quoted "parts" ++ [':'] := by decide
      have number : toString (parts : Int) = toString parts := rfl
      have shown : line (Json.object [("data", .string data), ("parts", .integer parts)]).print =
          inLines ["\x7b\"data\":".toList ++ Json.quoted data ++ ",\"parts\":".toList ++
            (toString parts).toList ++ ['}']] := by
        simp only [line_eq_inLines, Json.print, Json.printMembers, opening, count, number,
          List.append_assoc]
      rw [serialized, jsonLine, shown]
      exact .json (isTextOf_quoted data)
  | table =>
      rw [serialized, line_render]
      apply ShowsData.table
      apply Table.isTable_lines
      · decide
      · simp [single, Json.newline_notMem_toDigits]
      · simp
  | pretty =>
      rw [serialized, textLine, line_eq_inLines]
      exact .pretty
  | raw => exact .raw

section Arguments

def Argument.row (argument : Argument) : Row :=
  ⟨argument.index, argument.type, argument.value.toJson⟩

theorem isObject_print (argument : Argument) : argument.row.IsObject
    (Json.object [("index", .integer argument.index), ("type", .string argument.type),
      ("value", argument.value.toJson)]).print := by
  refine ⟨_, _, isTextOf_quoted argument.type, isTextOf_toJson argument.value, ?_⟩
  have index : "\x7b\"index\":".toList = ['{'] ++ Json.quoted "index" ++ [':'] := by decide
  have type : ",\"type\":".toList = [','] ++ Json.quoted "type" ++ [':'] := by decide
  have value : ",\"value\":".toList = [','] ++ Json.quoted "value" ++ [':'] := by decide
  have number : toString (argument.index : Int) = toString argument.index := rfl
  simp only [Json.print, Json.printMembers, index, type, value, number, List.append_assoc]
  rfl

/-- Rows are related to what is written for them if each is to its own. -/
theorem forall₂_row {α : Type} {related : Row → α → Prop} {written : Argument → α}
    {arguments : List Argument}
    (each : ∀ argument ∈ arguments, related argument.row (written argument)) :
    List.Forall₂ related (arguments.map Argument.row) (arguments.map written) := by
  rwa [List.forall₂_map_left_iff, List.forall₂_map_right_iff, List.forall₂_same]

theorem flatMap_textLine (arguments : List Argument) (text : Argument → String) :
    arguments.flatMap (fun argument => textLine (text argument)) =
      inLines (arguments.map fun argument => (text argument).toList) := by
  induction arguments with
  | nil => rfl
  | cons argument arguments ih =>
      rw [List.flatMap_cons, ih, textLine, line_eq_inLines]
      exact (inLines_cons _ _).symm

theorem numbered_eq_map_zipIdx (index : Nat) (labelled : List (String × Value)) :
    numbered index labelled =
      (labelled.zipIdx index).map fun (entry, index) => ⟨index, entry.1, entry.2⟩ := by
  induction labelled generalizing index with
  | nil => rfl
  | cons entry labelled ih => rw [numbered, ih, List.zipIdx_cons, List.map_cons]

/-- The rows that show labels and values, in their order. -/
def rowsOf (labelled : List (String × Value)) : List Row :=
  (numbered 0 labelled).map Argument.row

section Rows

variable (labelled : List (String × Value))

theorem rowsOf_eq_map_zipIdx :
    rowsOf labelled =
      labelled.zipIdx.map fun (entry, index) => ⟨index, entry.1, entry.2.toJson⟩ := by
  rw [rowsOf, numbered_eq_map_zipIdx, List.map_map]
  rfl

theorem map_index_rowsOf :
    (rowsOf labelled).map Row.index = List.range (rowsOf labelled).length := by
  rw [rowsOf_eq_map_zipIdx, List.map_map, List.length_map, List.length_zipIdx,
    List.range_eq_range', ← List.zipIdx_map_snd 0 labelled]
  rfl

theorem map_label_rowsOf : (rowsOf labelled).map Row.label = labelled.map Prod.fst := by
  rw [rowsOf_eq_map_zipIdx, List.map_map]
  conv => rhs; rw [← List.zipIdx_map_fst 0 labelled, List.map_map]
  rfl

theorem map_document_rowsOf :
    (rowsOf labelled).map Row.document = (labelled.map Prod.snd).map Value.toJson := by
  rw [rowsOf_eq_map_zipIdx, List.map_map, List.map_map]
  conv => rhs; rw [← List.zipIdx_map_fst 0 labelled, List.map_map]
  rfl

end Rows

/-- Each argument is shown by its row, if the labels are single lines. -/
theorem shows_arguments {labelled : List (String × Value)}
    (single : ∀ label ∈ labelled.map Prod.fst, '\n' ∉ label.toList) (format : OutputFormat) :
    Shows (rowsOf labelled) format (arguments labelled format) := by
  rw [← map_label_rowsOf, rowsOf, List.map_map, List.forall_mem_map] at single
  unfold arguments rowsOf
  generalize numbered 0 labelled = rows at single
  cases format with
  | json =>
      dsimp only
      rw [jsonLine, print_array, List.map_map, line_eq_inLines]
      exact .json (forall₂_row fun argument _ => isObject_print argument)
  | table =>
      dsimp only
      rw [line_render]
      refine .table (forall₂_row fun argument _ => ⟨_, isTextOf_toJson argument.value, rfl⟩) ?_
      apply Table.isTable_lines
      · decide
      · rw [List.forall_mem_map]
        intro argument mem
        have label : '\n' ∉ argument.row.label.toList := single argument mem
        have document := (isTextOf_toJson argument.value).1
        simp [Json.newline_notMem_toDigits, label, document]
      · simp
  | pretty =>
      dsimp only
      rw [flatMap_textLine]
      refine .pretty (forall₂_row fun argument _ => ⟨_, isTextOf_toJson argument.value, ?_⟩)
      simp [Argument.row, Json.compact]
  | raw =>
      dsimp only
      rw [jsonLine, print_array, List.map_map, line_eq_inLines]
      exact .raw (forall₂_row fun argument _ => isTextOf_toJson argument.value)

end Arguments

end ContractAbi.Report
