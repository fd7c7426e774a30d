import Mindwtr.Import.Source

/-!
# A matrix of cells

Cells that `escapeCell` of `mindwtr-csv-export.ts` has written, joined by a separator and by line breaks, are read back
by `parseCsvRows` as they were, whatever stands in them and whichever way the lines end.
-/

namespace Mindwtr.Import

open Mindwtr.Js

/-! ### Writing -/

/-- `value.replace(/"/gu, '""')`. -/
def doubleQuotes (value : String) : String :=
  String.ofList (value.toList.flatMap fun c => if c = '"' then [c, c] else [c])

/-- `new RegExp(`["\n\r${delimiter}]`).test(value)`. -/
def breaksRow (value : String) (delimiter : Separator) : Bool :=
  value.toList.any fun c => c = '"' || c = '\n' || c = '\r' || c = delimiter.char

def escapeCell (value : String) (delimiter : Separator) : String :=
  if breaksRow value delimiter then "\"" ++ doubleQuotes value ++ "\"" else value

def lineBreakText : Lib.Csv.LineBreak → String
  | .lf => "\n"
  | .crlf => "\r\n"
  | .cr => "\r"

def joinRow (delimiter : Separator) (row : List String) : String :=
  (String.singleton delimiter.char).intercalate (row.map fun value => escapeCell value delimiter)

/-- The rows in lines; an export breaks them by line feeds and does not end the last one. -/
def joinRows (delimiter : Separator) (lineBreak : Lib.Csv.LineBreak) (terminated : Bool) (rows : List (List String)) :
    String :=
  (lineBreakText lineBreak).intercalate (rows.map (joinRow delimiter)) ++
    if terminated then lineBreakText lineBreak else ""

def cellChars (rows : List (List String)) : List (List (List Char)) := rows.map fun row => row.map String.toList

def RowsWithinLimits (rows : List (List String)) : Prop := Lib.Csv.Within defaultImportCsvLimits (cellChars rows)

/-! ### Reading back -/

section
variable (delimiter : Separator)

theorem toList_escapeCell (value : String) :
    (escapeCell value delimiter).toList = Lib.Csv.writeCell delimiter.dialect value.toList := by
  have hspecial : breaksRow value delimiter = value.toList.any delimiter.dialect.special := rfl
  have hdouble : (doubleQuotes value).toList = value.toList.flatMap (Lib.Csv.double delimiter.dialect) := String.toList_ofList
  rw [escapeCell, Lib.Csv.writeCell, hspecial]
  split
  · rw [String.toList_append, String.toList_append, hdouble]
    rfl
  · rfl

theorem toList_joinRow (row : List String) :
    (joinRow delimiter row).toList = Lib.Csv.writeRow delimiter.dialect (row.map String.toList) := by
  rw [joinRow, String.toList_intercalate, String.toList_singleton, List.map_map, Lib.Csv.writeRow, List.map_map]
  exact congrArg _ (List.map_congr_left fun value _ => toList_escapeCell delimiter value)

theorem toList_lineBreakText (lineBreak : Lib.Csv.LineBreak) :
    (lineBreakText lineBreak).toList = lineBreak.text delimiter.dialect := by
  cases lineBreak with
  | lf => rfl
  | crlf => rfl
  | cr => rfl

theorem toList_joinRows (lineBreak : Lib.Csv.LineBreak) (terminated : Bool) (rows : List (List String)) :
    (joinRows delimiter lineBreak terminated rows).toList =
      Lib.Csv.writeLines delimiter.dialect lineBreak terminated (cellChars rows) := by
  have hrows : (rows.map (joinRow delimiter)).map String.toList =
      (cellChars rows).map (Lib.Csv.writeRow delimiter.dialect) := by
    rw [cellChars, List.map_map, List.map_map]
    exact List.map_congr_left fun row _ => toList_joinRow delimiter row
  rw [joinRows, String.toList_append, String.toList_intercalate, hrows, toList_lineBreakText delimiter, Lib.Csv.writeLines]
  cases terminated with
  | false => rfl
  | true => rw [if_pos rfl, if_pos rfl, toList_lineBreakText delimiter]

theorem cellChars_back (rows : List (List String)) :
    (cellChars rows).map (fun row => row.map String.ofList) = rows := by
  simp [cellChars, Function.comp_def]

end

/-- A matrix of cells with some text in every row is read back from the lines it is written in. -/
theorem parseCsvRows_joinRows (delimiter : Separator) (lineBreak : Lib.Csv.LineBreak) (terminated : Bool)
    {rows : List (List String)} (hne : rows ≠ []) (htext : ∀ row ∈ rows, ∃ cell ∈ row, cell ≠ "")
    (hwithin : RowsWithinLimits rows) :
    parseCsvRows (joinRows delimiter lineBreak terminated rows) delimiter = .ok (rows, false) := by
  obtain ⟨row, rest, rfl⟩ := List.exists_cons_of_ne_nil hne
  have hcr : delimiter.dialect.cr ≠ delimiter.dialect.delimiter := by cases delimiter <;> decide
  have hchars : ∀ cells ∈ cellChars (row :: rest), Lib.Csv.HasText cells := by
    intro cells hcells
    obtain ⟨source, hsource, rfl⟩ := List.mem_map.mp hcells
    obtain ⟨cell, hmem, hcell⟩ := htext source hsource
    exact ⟨cell.toList, List.mem_map_of_mem hmem, fun hnil => hcell (String.toList_eq_nil_iff.mp hnil)⟩
  have hread : Lib.Csv.read defaultImportCsvLimits delimiter.dialect {}
      (joinRows delimiter lineBreak terminated (row :: rest)).toList = .ok { rows := cellChars (row :: rest) } := by
    rw [toList_joinRows]
    exact (Lib.Csv.read_writeLines hcr lineBreak terminated _ _ hchars).mpr ⟨hwithin, rfl⟩
  rw [parseCsvRows, hread]
  simp only [cellChars_back, List.isEmpty_cons, Bool.false_eq_true, false_and, if_false]

theorem parseCsvRows_joinRows_quotes :
    parseCsvRows (joinRows .semicolon .crlf true [[" a\"b", "c;d\r\n"], ["", "e"]]) .semicolon =
      .ok ([[" a\"b", "c;d\r\n"], ["", "e"]], false) :=
  parseCsvRows_joinRows .semicolon .crlf true (by simp) (by simp)
    (by
      unfold RowsWithinLimits Lib.Csv.Within Lib.Csv.RowWithin
      decide +kernel)

/-- No rows at all are written as the empty text, which is read as one empty cell. -/
theorem parseCsvRows_joinRows_empty : RowsWithinLimits [] ∧
    parseCsvRows (joinRows .comma .lf false []) .comma = .ok ([[""]], false) ∧ [[""]] ≠ ([] : List (List String)) :=
  ⟨by simp [RowsWithinLimits, Lib.Csv.Within, cellChars], by decide +kernel, by decide⟩

end Mindwtr.Import
