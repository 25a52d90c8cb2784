import ContractAbi.Command.Table
import ContractAbi.Proofs.Text
import Mathlib.Data.List.Forall2
import Mathlib.Data.List.Induction

/-!
# The lines of a table

If no cell has a line feed, each row of a table is a single line, in which each cell stands
between blanks.  The other lines are drawn across and have no text.
-/

namespace ContractAbi.Table

/-- The text of a cell between blanks. -/
def IsCell (text : String) (cell : List Char) : Prop :=
  ∃ padding, cell = [' '] ++ text.toList ++ List.replicate padding ' ' ++ [' ']

/-- A line with a cell for each of the texts. -/
def IsRow (texts : List String) (line : List Char) : Prop :=
  ∃ cells, List.Forall₂ IsCell texts cells ∧ line = ['│'] ++ ['┆'].intercalate cells ++ ['│']

/-- A line across the table. -/
def IsRule (line : List Char) : Prop :=
  ∀ character ∈ line, character ∈
    ['┌', '─', '┬', '┐', '╞', '═', '╪', '╡', '├', '╌', '┼', '┤', '└', '┴', '┘']

/-- A header and rows, with lines across the table around and between them. -/
def IsTable (header : List String) (rows : List (List String)) (lines : List (List Char)) : Prop :=
  ∃ top head under body separator bottom,
    (∀ rule ∈ [top, under, separator, bottom], IsRule rule) ∧
      IsRow header head ∧ List.Forall₂ IsRow rows body ∧
      lines = [top, head, under] ++ body.intersperse separator ++ [bottom]

theorem cellLines_of_newline_notMem {text : List Char} (single : '\n' ∉ text) :
    cellLines text = [text] := by
  induction text with
  | nil => rfl
  | cons character text ih =>
      rw [List.mem_cons, not_or] at single
      rw [cellLines, if_neg (Ne.symm single.1), ih single.2]

theorem rowOf_of_newline_notMem {cells : List String}
    (single : ∀ cell ∈ cells, '\n' ∉ cell.toList) :
    rowOf cells = cells.map fun cell => [cell.toList] :=
  List.map_congr_left fun cell mem => cellLines_of_newline_notMem (single cell mem)

theorem length_rowOf (cells : List String) : (rowOf cells).length = cells.length :=
  List.length_map ..

theorem length_columnWidths {first : Row} {others : List Row}
    (regular : ∀ row ∈ others, row.length = first.length) :
    (columnWidths first others).length = first.length := by
  induction others using List.reverseRecOn with
  | nil => exact List.length_map ..
  | append_singleton others last ih =>
      rw [List.forall_mem_append, List.forall_mem_singleton] at regular
      have before := ih regular.1
      rw [columnWidths] at before
      rw [columnWidths, List.foldl_append, List.foldl_cons, List.foldl_nil, List.length_map,
        List.length_zip, before, regular.2, Nat.min_self]

theorem isRule_rule {left stroke crossing right : Char}
    (drawn : IsRule [left, stroke, crossing, right]) (widths : List Nat) :
    IsRule (rule left stroke crossing right widths) := by
  simp only [IsRule, List.forall_mem_cons] at drawn
  rcases drawn with ⟨leftDrawn, strokeDrawn, crossingDrawn, rightDrawn, _⟩
  intro character mem
  rw [rule, List.mem_append, List.mem_append, List.mem_singleton, List.mem_singleton] at mem
  rcases mem with (rfl | mem) | rfl
  · exact leftDrawn
  · rcases mem_intercalate mem with mem | ⟨piece, pieceMem, mem⟩
    · rwa [List.mem_singleton.1 mem]
    · rcases List.mem_map.1 pieceMem with ⟨width, _, rfl⟩
      rwa [List.eq_of_mem_replicate mem]
  · exact rightDrawn

theorem forall₂_isCell {cells : List String} {widths : List Nat}
    (same : widths.length = cells.length) :
    List.Forall₂ IsCell cells
      ((widths.zip (cells.map fun cell => [cell.toList])).map fun (width, cell) =>
        padded width ((cell[0]?).getD [])) := by
  induction cells generalizing widths with
  | nil => simp
  | cons cell cells ih =>
      cases widths with
      | nil => cases same
      | cons width widths => exact .cons ⟨_, rfl⟩ (ih (Nat.succ.inj same))

/-- A row of cells without line feeds is a single line. -/
theorem rowLines_of_newline_notMem {cells : List String} (widths : List Nat)
    (single : ∀ cell ∈ cells, '\n' ∉ cell.toList) :
    rowLines widths (rowOf cells) = [rowLine widths (rowOf cells) 0] := by
  have height : rowHeight (rowOf cells) = 1 := by
    rw [rowOf_of_newline_notMem single, rowHeight, List.foldl_map]
    exact List.foldl_fixed' (fun _ => rfl) cells
  rw [rowLines, height]
  rfl

theorem isRow_rowLine {cells : List String} {widths : List Nat}
    (single : ∀ cell ∈ cells, '\n' ∉ cell.toList) (same : widths.length = cells.length) :
    IsRow cells (rowLine widths (rowOf cells) 0) := by
  rw [rowOf_of_newline_notMem single]
  exact ⟨_, forall₂_isCell same, rfl⟩

theorem intercalate_map_singleton {α : Type} (separator : α) (items : List α) :
    [separator].intercalate (items.map fun item => [item]) = items.intersperse separator := by
  induction items with
  | nil => rfl
  | cons item items ih =>
      cases items with
      | nil => rfl
      | cons next items =>
          rw [List.map_cons] at ih
          rw [List.map_cons, List.map_cons, List.intercalate_cons_cons, ih]
          rfl

/-- Cells without line feeds, as many in each row as in the header, are laid out line by line. -/
theorem isTable_lines {header : List String} {rows : List (List String)}
    (headerSingle : ∀ cell ∈ header, '\n' ∉ cell.toList)
    (single : ∀ row ∈ rows, ∀ cell ∈ row, '\n' ∉ cell.toList)
    (regular : ∀ row ∈ rows, row.length = header.length) :
    IsTable header rows (lines header rows) := by
  generalize found : columnWidths (rowOf header) (rows.map rowOf) = widths
  have same : widths.length = header.length := by
    rw [← found, length_columnWidths, length_rowOf]
    rw [List.forall_mem_map]
    intro row mem
    rw [length_rowOf, length_rowOf, regular row mem]
  have body : (rows.map rowOf).map (rowLines widths) =
      (rows.map fun row => rowLine widths (rowOf row) 0).map fun line => [line] := by
    rw [List.map_map, List.map_map]
    exact List.map_congr_left fun row mem => rowLines_of_newline_notMem widths (single row mem)
  refine ⟨rule '┌' '─' '┬' '┐' widths, rowLine widths (rowOf header) 0,
    rule '╞' '═' '╪' '╡' widths, rows.map fun row => rowLine widths (rowOf row) 0,
    rule '├' '╌' '┼' '┤' widths, rule '└' '─' '┴' '┘' widths, ?_,
    isRow_rowLine headerSingle same, ?_, ?_⟩
  · simp only [List.forall_mem_cons]
    refine ⟨isRule_rule ?_ _, isRule_rule ?_ _, isRule_rule ?_ _, isRule_rule ?_ _,
      List.forall_mem_nil _⟩ <;> simp [IsRule]
  · rw [List.forall₂_map_right_iff, List.forall₂_same]
    exact fun row mem => isRow_rowLine (single row mem) (same.trans (regular row mem).symm)
  · simp only [lines, found, rowLines_of_newline_notMem widths headerSingle, body,
      intercalate_map_singleton]
    rfl

end ContractAbi.Table
