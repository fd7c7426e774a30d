import Mindwtr.Import.CsvRows
import Mindwtr.Js.Uri

/-!
# Reading an exported file

The separator of an exported file is recognised and its rows are read back as they were written, whatever their cells
hold (`parseMindwtrCsvRows_export`). Every column is found under its name, so a cell is read as it was written, up to
the space around it and the word NULL (`readCell_rowFor`).
-/

namespace Mindwtr.Import

open Mindwtr.Js Mindwtr.Sync

/-- What the results on exported files use of the language. -/
class TextLaws [Runtime] : Prop where
  toUpperCase_ascii (s : String) (h : ∀ c ∈ s.toList, c.toNat < 128) :
    Runtime.toUpperCase s = String.ofList (s.toList.map Char.toUpper)
  numberToString_ne_empty (n : Rat) : Runtime.numberToString n ≠ ""
  encodeURIComponent_injective (s t : String) (h : Runtime.encodeURIComponent s = Runtime.encodeURIComponent t) : s = t
  encodeURIComponent_colon (s : String) : ':' ∉ (Runtime.encodeURIComponent s).toList

/-! ### The header -/

def headerRow : List (List Char) := mindwtrCsvColumns.map String.toList

/-- The first line of an exported file. -/
def headerLine (separator : Separator) : List Char := Lib.Csv.writeRow separator.dialect headerRow

theorem headerLine_plain (separator : Separator) :
    (headerLine separator).all fun c => c != '\n' && c != '\r' && c != '\uFEFF' := by
  cases separator <;> decide +kernel

theorem splitLines_line {line : List Char} (h : line.all fun c => c != '\n' && c != '\r' && c != '\uFEFF')
    (rest : List Char) : splitLines (line ++ '\n' :: rest) = line :: splitLines rest := by
  induction line with
  | nil => rw [List.nil_append, splitLines, if_pos rfl]
  | cons c line ih =>
    simp only [List.all_cons, Bool.and_eq_true, bne_iff_ne] at h
    rw [List.cons_append, splitLines, if_neg h.1.1.1, if_neg (by simp [h.1.1.2]), ih h.2]

theorem splitLines_last {line : List Char} (h : line.all fun c => c != '\n' && c != '\r' && c != '\uFEFF') :
    splitLines line = [line] := by
  induction line with
  | nil => rfl
  | cons c line ih =>
    simp only [List.all_cons, Bool.and_eq_true, bne_iff_ne] at h
    rw [splitLines, if_neg h.1.1.1, if_neg (by simp [h.1.1.2]), ih h.2]

section
variable [Runtime] (data : AppData) (tasks : List Task) (separator : Separator)

/-- The rows of the exported tasks. -/
def exportedRows : List (List String) := (tasks.filter isLiveTask).map (rowFor data)

theorem toList_serializeMindwtrCsv :
    (serializeMindwtrCsv data tasks separator).toList = headerLine separator ∨
      ∃ rest, (serializeMindwtrCsv data tasks separator).toList = headerLine separator ++ '\n' :: rest := by
  rw [serializeMindwtrCsv, String.toList_ofList, List.map_cons]
  cases h : ((tasks.filter isLiveTask).map (rowFor data)).map fun row => row.map String.toList with
  | nil =>
    left
    simp [Lib.Csv.writeRows, headerLine, headerRow]
  | cons row rows =>
    right
    exact ⟨_, Lib.Csv.writeRows_cons _ _ _⟩

theorem sanitizeCsvText_export :
    sanitizeCsvText (serializeMindwtrCsv data tasks separator) = serializeMindwtrCsv data tasks separator := by
  have hhead : (headerLine separator).head? = some 'T' := by cases separator <;> decide +kernel
  rw [sanitizeCsvText, if_neg]
  rcases toList_serializeMindwtrCsv data tasks separator with h | ⟨rest, h⟩
  · rw [h, hhead]
    decide
  · rw [h, List.head?_append, hhead, Option.some_or]
    decide

theorem firstLine_export : firstLine (serializeMindwtrCsv data tasks separator) = some (headerLine separator) := by
  have htext : (headerLine separator).any fun c => !isTrimmed c := by cases separator <;> decide +kernel
  rw [firstLine, sanitizeCsvText_export]
  rcases toList_serializeMindwtrCsv data tasks separator with h | ⟨rest, h⟩
  · rw [h, splitLines_last (headerLine_plain separator), List.find?_cons_of_pos (by exact htext)]
  · rw [h, splitLines_line (headerLine_plain separator), List.find?_cons_of_pos (by exact htext)]

theorem detectMindwtrCsvDelimiter_export :
    detectMindwtrCsvDelimiter (serializeMindwtrCsv data tasks separator) = separator := by
  rw [detectMindwtrCsvDelimiter, detectDelimiter, firstLine_export]
  cases separator <;> decide +kernel

/-! ### The rows -/

/-- The cells of the file, symbol by symbol. -/
def exportedTable : List (List (List Char)) :=
  (mindwtrCsvColumns :: exportedRows data tasks).map fun row => row.map String.toList

/-- The file is within the limits of a reader. -/
def WithinLimits : Prop := Lib.Csv.Within defaultImportCsvLimits (exportedTable data tasks)

theorem exportedTable_back : (exportedTable data tasks).map (fun row => row.map String.ofList) =
    mindwtrCsvColumns :: exportedRows data tasks := by
  simp [exportedTable, Function.comp_def]

variable [TextLaws]

theorem hasText_rowFor (task : Task) : Lib.Csv.HasText ((rowFor data task).map String.toList) := by
  refine ⟨(Runtime.numberToString ((asNum? task.order).getD 0)).toList, ?_, ?_⟩
  · refine List.mem_map_of_mem (List.mem_map.mpr ⟨"Order", by decide, ?_⟩)
    simp [cellsFor, List.lookup]
  · intro h
    exact TextLaws.numberToString_ne_empty _ (String.toList_eq_nil_iff.1 h)

theorem hasText_exportedTable : ∀ row ∈ exportedTable data tasks, Lib.Csv.HasText row := by
  simp only [exportedTable, exportedRows, List.map_cons, List.forall_mem_cons, List.forall_mem_map]
  exact ⟨⟨"Title".toList, by decide, by decide⟩, fun task _ => hasText_rowFor data task⟩

theorem parseCsvRows_export {out : List (List String) × Bool} :
    parseCsvRows (serializeMindwtrCsv data tasks separator) separator = .ok out ↔
      WithinLimits data tasks ∧ out = (mindwtrCsvColumns :: exportedRows data tasks, false) := by
  have htext : (serializeMindwtrCsv data tasks separator).toList =
      Lib.Csv.writeRows separator.dialect (exportedTable data tasks) := String.toList_ofList
  have hread {t : Lib.Csv.ReadState Char} :
      Lib.Csv.read defaultImportCsvLimits separator.dialect {}
          (Lib.Csv.writeRows separator.dialect (exportedTable data tasks)) = .ok t ↔
        WithinLimits data tasks ∧ t = { rows := exportedTable data tasks } :=
    Lib.Csv.read_writeRows _ (hasText_exportedTable data tasks)
  rw [parseCsvRows, htext]
  cases hresult : Lib.Csv.read defaultImportCsvLimits separator.dialect {}
      (Lib.Csv.writeRows separator.dialect (exportedTable data tasks)) with
  | error e =>
    constructor
    · intro h; cases h
    · intro h
      rw [hread.2 ⟨h.1, rfl⟩] at hresult
      cases hresult
  | ok s =>
    obtain ⟨hwithin, rfl⟩ := hread.1 hresult
    simp only [exportedTable_back, List.isEmpty_cons, Bool.false_eq_true, false_and, if_false, Except.ok.injEq]
    constructor
    · intro h; exact ⟨hwithin, h.symm⟩
    · intro h; exact h.2.symm

/-! ### The columns -/

/-- A column's name as it is looked up. -/
def columnKey (column : String) : String := String.ofList (column.toList.map Char.toUpper)

def columnIndex : List (String × Nat) := (mindwtrCsvColumns.map columnKey).zipIdx

theorem normalizeHeaderCell_column {column : String} (h : column ∈ mindwtrCsvColumns) :
    normalizeHeaderCell column = columnKey column := by
  have hplain : mindwtrCsvColumns.all fun column =>
      trim column == column && column.toList.all fun c => decide (c.toNat < 128) := by decide +kernel
  simp only [List.all_eq_true, Bool.and_eq_true, beq_iff_eq, decide_eq_true_eq] at hplain
  obtain ⟨htrim, hascii⟩ := hplain column h
  rw [normalizeHeaderCell, htrim, TextLaws.toUpperCase_ascii column hascii]
  rfl

theorem buildHeaderIndex_columns : buildHeaderIndex mindwtrCsvColumns = columnIndex := by
  have hkeys : mindwtrCsvColumns.map normalizeHeaderCell = mindwtrCsvColumns.map columnKey :=
    List.map_congr_left fun column h => normalizeHeaderCell_column h
  have hfold : buildHeaderIndex mindwtrCsvColumns =
      (mindwtrCsvColumns.map normalizeHeaderCell).zipIdx.foldl (fun index (entry : String × Nat) =>
        if entry.1 = "" ∨ (index.lookup entry.1).isSome then index else index ++ [entry]) [] := by
    rw [List.zipIdx_map, List.foldl_map]
    rfl
  rw [hfold, hkeys]
  decide +kernel

omit [Runtime] [TextLaws] in
theorem lookup_columnIndex {column : String} (h : column ∈ mindwtrCsvColumns) :
    columnIndex.lookup (columnKey column) = some (mindwtrCsvColumns.idxOf column) := by
  have hall : mindwtrCsvColumns.all fun column =>
      columnIndex.lookup (columnKey column) == some (mindwtrCsvColumns.idxOf column) := by decide +kernel
  exact beq_iff_eq.1 (List.all_eq_true.1 hall column h)

/-- What a cell is read back as: without the space around it, and the word NULL as nothing. -/
def readText (value : String) : String := if isNullWord (trim value) then "" else trim value

omit [Runtime] [TextLaws] in
theorem trim_readText (value : String) : trim (readText value) = readText value := by
  unfold readText
  split
  · decide +kernel
  · exact trim_trim value

/-- The text of a cell of an exported row. -/
def exportedCell (task : Task) (column : String) : String := ((cellsFor data task).lookup column).getD ""

omit [TextLaws] in
theorem readCell_rowFor (task : Task) {column : String} (h : column ∈ mindwtrCsvColumns) :
    readCell (rowFor data task) columnIndex (columnKey column) = readText (exportedCell data task column) := by
  have hcell : (rowFor data task).getD (mindwtrCsvColumns.idxOf column) "" = exportedCell data task column := by
    have hindex : mindwtrCsvColumns[mindwtrCsvColumns.idxOf column]? = some column := by
      rw [List.getElem?_eq_getElem (List.idxOf_lt_length_of_mem h), List.getElem_idxOf]
    rw [List.getD_eq_getElem?_getD, rowFor, List.getElem?_map, hindex]
    rfl
  rw [readCell, getCell, lookup_columnIndex h]
  simp only [hcell]
  rfl

end

/-! ### A runtime with these laws -/

/-- A device in UTC that escapes URIs. -/
@[reducible] def escapingCalendar : LocalCalendar :=
  { utcCalendar with toRuntime := { isoRuntime with encodeURIComponent := percentEncode } }

theorem isoRuntime_numberToString_ne_empty (n : Rat) : isoRuntime.numberToString n ≠ "" := by
  have hint (i : Int) : (toString i).toList ≠ [] := by
    cases i with
    | ofNat k => simp [toString, Int.repr, Nat.repr]
    | negSucc k => simp [toString, Int.repr]
  intro h
  by_cases hden : n.den = 1
  · have hlist := congrArg String.toList ((if_pos hden).symm.trans h)
    exact hint _ hlist
  · have hlist := congrArg String.toList ((if_neg hden).symm.trans h)
    simp at hlist

theorem textLaws_escaping : @TextLaws escapingCalendar.toRuntime :=
  @TextLaws.mk escapingCalendar.toRuntime (fun _ _ => rfl) isoRuntime_numberToString_ne_empty percentEncode_injective
    percentEncode_colon

end Mindwtr.Import
