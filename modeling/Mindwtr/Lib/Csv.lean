import Mathlib

/-!
# Delimited text

Cells are written with quotes where a special symbol stands in them and read by an automaton that looks one symbol
ahead and stops at a limit. Reading what was written gives the rows back exactly when they are within the limits
(`read_writeRows`), whatever symbols the cells hold.
-/

namespace Mindwtr.Lib.Csv

/-- The special symbols of a format. -/
structure Dialect (α : Type) where
  quote : α
  delimiter : α
  cr : α
  lf : α
  delimiter_ne_quote : delimiter ≠ quote
  delimiter_ne_lf : delimiter ≠ lf
  cr_ne_quote : cr ≠ quote
  lf_ne_quote : lf ≠ quote
  cr_ne_lf : cr ≠ lf

/-- What a reader accepts; `width` is the length of a symbol. -/
structure Limits (α : Type) where
  width : α → Nat
  maxCell : Nat
  maxColumns : Nat
  maxRows : Nat

inductive Overflow where
  | cell
  | columns
  | rows
deriving DecidableEq, Repr

structure ReadState (α : Type) where
  rows : List (List (List α)) := []
  row : List (List α) := []
  cell : List α := []
  inQuotes : Bool := false
  /-- The next symbol has been read along with the one before it. -/
  skip : Bool := false

variable {α : Type}

section
variable [DecidableEq α] (d : Dialect α)

def Dialect.special (c : α) : Bool := c = d.quote || c = d.lf || c = d.cr || c = d.delimiter

/-! ### Writing -/

def double (c : α) : List α := if c = d.quote then [c, c] else [c]

def writeCell (cell : List α) : List α :=
  if cell.any d.special then d.quote :: (cell.flatMap (double d) ++ [d.quote]) else cell

def writeRow (row : List (List α)) : List α := [d.delimiter].intercalate (row.map (writeCell d))

def writeRows (rows : List (List (List α))) : List α := [d.lf].intercalate (rows.map (writeRow d))

/-- The ways a line ends. -/
inductive LineBreak where
  | lf
  | crlf
  | cr
deriving DecidableEq, Repr

def LineBreak.text : LineBreak → List α
  | .lf => [d.lf]
  | .crlf => [d.cr, d.lf]
  | .cr => [d.cr]

/-- Rows in lines, where the last line may end like the others. -/
def writeLines (lineBreak : LineBreak) (terminated : Bool) (rows : List (List (List α))) : List α :=
  (lineBreak.text d).intercalate (rows.map (writeRow d)) ++ if terminated then lineBreak.text d else []

end

/-! ### Reading -/

section
variable (lim : Limits α)

def Limits.cellWidth (cell : List α) : Nat := (cell.map lim.width).sum

def append (s : ReadState α) (c : α) : Except Overflow (ReadState α) :=
  if lim.maxCell < lim.cellWidth s.cell + lim.width c then .error .cell
  else .ok { s with cell := s.cell ++ [c] }

def finishCell (s : ReadState α) : Except Overflow (ReadState α) :=
  if lim.maxColumns ≤ s.row.length then .error .columns
  else .ok { s with row := s.row ++ [s.cell], cell := [] }

def pushRow (s : ReadState α) : Except Overflow (ReadState α) :=
  if lim.maxRows ≤ s.rows.length then .error .rows
  else .ok { s with rows := s.rows ++ [s.row], row := [] }

/-- A row without any text is left out. -/
def finishRow (s : ReadState α) : Except Overflow (ReadState α) :=
  if s.cell.isEmpty && s.row.all List.isEmpty then .ok { s with row := [] }
  else finishCell lim s >>= pushRow lim

variable [DecidableEq α] (d : Dialect α)

def step (s : ReadState α) (c : α) (next : Option α) : Except Overflow (ReadState α) :=
  if s.inQuotes then
    if c = d.quote then
      if next = some d.quote then (append lim s c).map fun s => { s with skip := true }
      else .ok { s with inQuotes := false }
    else append lim s c
  else if c = d.quote then .ok { s with inQuotes := true }
  else if c = d.delimiter then finishCell lim s
  else if c = d.cr then (finishRow lim s).map fun s => { s with skip := next = some d.lf }
  else if c = d.lf then finishRow lim s
  else append lim s c

def read (s : ReadState α) : List α → Except Overflow (ReadState α)
  | [] => finishRow lim s
  | c :: rest =>
    if s.skip then read { s with skip := false } rest
    else step lim d s c rest.head? >>= fun s => read s rest

end

/-- Between two cells: nothing has been read of the next one. -/
structure Fresh (s : ReadState α) : Prop where
  cell : s.cell = []
  inQuotes : s.inQuotes = false
  skip : s.skip = false

/-! ### One cell -/

variable {lim : Limits α} {s t : ReadState α}

theorem append_eq_ok {c : α} (h : append lim s c = .ok t) : t = { s with cell := s.cell ++ [c] } := by
  unfold append at h
  split at h
  · cases h
  · exact (Except.ok.inj h).symm

section
variable [DecidableEq α] {d : Dialect α}

theorem read_cons (hs : s.skip = false) (c : α) (rest : List α) :
    read lim d s (c :: rest) = step lim d s c rest.head? >>= fun t => read lim d t rest := by
  rw [read, if_neg (by simp [hs])]

theorem step_plain {c : α} (hc : d.special c = false) (hs : s.inQuotes = false) (next : Option α) :
    step lim d s c next = append lim s c := by
  simp only [Dialect.special, Bool.or_eq_false_iff, decide_eq_false_iff_not] at hc
  obtain ⟨⟨⟨hquote, hlf⟩, hcr⟩, hdelimiter⟩ := hc
  simp [step, hs, hquote, hlf, hcr, hdelimiter]

theorem read_plain (cell : List α) (hcell : cell.any d.special = false) (s : ReadState α)
    (hs : s.inQuotes = false) (hskip : s.skip = false) (rest : List α) :
    read lim d s (cell ++ rest) = cell.foldlM (append lim) s >>= fun t => read lim d t rest := by
  induction cell generalizing s with
  | nil => rfl
  | cons c cell ih =>
    simp only [List.any_cons, Bool.or_eq_false_iff] at hcell
    rw [List.cons_append, read_cons hskip, step_plain hcell.1 hs, List.foldlM_cons]
    cases happend : append lim s c with
    | error e => rfl
    | ok t =>
      have ht := append_eq_ok happend
      exact ih hcell.2 t (by rw [ht]; exact hs) (by rw [ht]; exact hskip)

theorem step_doubled (hs : s.inQuotes = true) :
    step lim d s d.quote (some d.quote) = (append lim s d.quote).map fun s => { s with skip := true } := by
  rw [step, if_pos hs, if_pos rfl, if_pos rfl]

theorem step_closing (hs : s.inQuotes = true) {next : Option α} (hnext : next ≠ some d.quote) :
    step lim d s d.quote next = .ok { s with inQuotes := false } := by
  rw [step, if_pos hs, if_pos rfl, if_neg hnext]

theorem step_inside (hs : s.inQuotes = true) {c : α} (hc : c ≠ d.quote) (next : Option α) :
    step lim d s c next = append lim s c := by
  rw [step, if_pos hs, if_neg hc]

theorem step_opening (hs : s.inQuotes = false) (next : Option α) :
    step lim d s d.quote next = .ok { s with inQuotes := true } := by
  rw [step, if_neg (by simp [hs]), if_pos rfl]

theorem read_skipped (t : ReadState α) (ht : t.skip = false) (c : α) (rest : List α) :
    read lim d { t with skip := true } (c :: rest) = read lim d t rest := by
  rw [read, if_pos rfl]
  show read lim d { t with skip := false } rest = read lim d t rest
  rw [← ht]

theorem read_quoted (cell : List α) (s : ReadState α) (hs : s.inQuotes = true) (hskip : s.skip = false)
    {rest : List α} (hrest : rest.head? ≠ some d.quote) :
    read lim d s (cell.flatMap (double d) ++ d.quote :: rest) =
      cell.foldlM (append lim) s >>= fun t => read lim d { t with inQuotes := false } rest := by
  induction cell generalizing s with
  | nil =>
    rw [List.flatMap_nil, List.nil_append, read_cons hskip, step_closing hs hrest]
    rfl
  | cons c cell ih =>
    have hrec {t : ReadState α} (happend : append lim s c = .ok t) :=
      ih t (by rw [append_eq_ok happend]; exact hs) (by rw [append_eq_ok happend]; exact hskip)
    rw [List.flatMap_cons, List.append_assoc, List.foldlM_cons, double]
    split
    · next hc =>
      -- a doubled quote is one symbol of the cell
      subst hc
      rw [List.cons_append, read_cons hskip, List.cons_append, List.nil_append, List.head?_cons, step_doubled hs]
      cases happend : append lim s d.quote with
      | error e => rfl
      | ok t =>
        have ht : t.skip = false := by rw [append_eq_ok happend]; exact hskip
        exact (read_skipped t ht d.quote _).trans (hrec happend)
    · next hc =>
      rw [List.cons_append, read_cons hskip, List.nil_append, step_inside hs hc]
      cases happend : append lim s c with
      | error e => rfl
      | ok t => exact hrec happend

end

theorem foldlM_append (cell : List α) (s : ReadState α) (hs : lim.cellWidth s.cell ≤ lim.maxCell) :
    cell.foldlM (append lim) s =
      if lim.maxCell < lim.cellWidth (s.cell ++ cell) then .error .cell
      else .ok { s with cell := s.cell ++ cell } := by
  induction cell generalizing s with
  | nil => simp only [List.foldlM_nil, List.append_nil, if_neg (Nat.not_lt.2 hs)]; rfl
  | cons c cell ih =>
    have hwidth : lim.cellWidth (s.cell ++ [c]) = lim.cellWidth s.cell + lim.width c := by
      simp [Limits.cellWidth]
    have hmore : lim.cellWidth (s.cell ++ [c]) ≤ lim.cellWidth (s.cell ++ c :: cell) := by
      simp [Limits.cellWidth]
    rw [List.foldlM_cons, append]
    split
    · rw [if_pos (by omega)]
      rfl
    · show List.foldlM (append lim) { s with cell := s.cell ++ [c] } cell = _
      rw [ih _ (by simp only [hwidth]; omega)]
      simp only [List.append_assoc, List.singleton_append]

/-- The reader has taken in a whole cell. -/
def load (lim : Limits α) (s : ReadState α) (cell : List α) : Except Overflow (ReadState α) :=
  if lim.maxCell < lim.cellWidth cell then .error .cell else .ok { s with cell := cell }

section
variable [DecidableEq α] {d : Dialect α}

theorem read_writeCell (cell : List α) (hs : Fresh s) {rest : List α} (hrest : rest.head? ≠ some d.quote) :
    read lim d s (writeCell d cell ++ rest) = load lim s cell >>= fun t => read lim d t rest := by
  have hempty : lim.cellWidth s.cell ≤ lim.maxCell := by rw [hs.cell]; exact Nat.zero_le _
  unfold writeCell load
  split
  · rw [List.cons_append, read_cons hs.skip, List.append_assoc, List.singleton_append, step_opening hs.inQuotes]
    show read lim d { s with inQuotes := true } _ = _
    rw [read_quoted cell { s with inQuotes := true } rfl hs.skip hrest, foldlM_append cell { s with inQuotes := true } hempty]
    simp only [hs.cell, List.nil_append]
    split
    · rfl
    · show read lim d { s with cell := cell, inQuotes := false } rest = _
      rw [← hs.inQuotes]
      rfl
  · next hplain =>
    rw [read_plain cell (by simpa using hplain) s hs.inQuotes hs.skip, foldlM_append cell s hempty]
    simp only [hs.cell, List.nil_append]

theorem read_delimiter (hs : s.inQuotes = false) (hskip : s.skip = false) (rest : List α) :
    read lim d s (d.delimiter :: rest) = finishCell lim s >>= fun t => read lim d t rest := by
  rw [read_cons hskip, step, if_neg (by simp [hs]), if_neg d.delimiter_ne_quote, if_pos rfl]

theorem read_lf (hs : s.inQuotes = false) (hskip : s.skip = false) (rest : List α) :
    read lim d s (d.lf :: rest) = finishRow lim s >>= fun t => read lim d t rest := by
  rw [read_cons hskip, step, if_neg (by simp [hs]), if_neg d.lf_ne_quote, if_neg d.delimiter_ne_lf.symm,
    if_neg d.cr_ne_lf.symm, if_pos rfl]

end

/-! ### One row -/

/-- The reader has taken in the cells of a row. -/
def loadRow (lim : Limits α) (s : ReadState α) : List (List α) → Except Overflow (ReadState α)
  | [] => .ok s
  | [cell] => load lim s cell
  | cell :: next :: cells => do loadRow lim (← finishCell lim (← load lim s cell)) (next :: cells)

theorem load_eq_ok {cell : List α} (h : load lim s cell = .ok t) :
    lim.cellWidth cell ≤ lim.maxCell ∧ t = { s with cell := cell } := by
  unfold load at h
  split at h
  · cases h
  · exact ⟨by omega, (Except.ok.inj h).symm⟩

theorem finishCell_eq_ok (h : finishCell lim s = .ok t) :
    s.row.length < lim.maxColumns ∧ t = { s with row := s.row ++ [s.cell], cell := [] } := by
  unfold finishCell at h
  split at h
  · cases h
  · exact ⟨by omega, (Except.ok.inj h).symm⟩

section
variable [DecidableEq α] {d : Dialect α}

theorem read_writeRow (cells : List (List α)) (hs : Fresh s) {rest : List α}
    (hquote : rest.head? ≠ some d.quote) :
    read lim d s (writeRow d cells ++ rest) = loadRow lim s cells >>= fun t => read lim d t rest := by
  induction cells generalizing s with
  | nil => rfl
  | cons cell cells ih =>
    cases cells with
    | nil =>
      rw [writeRow, List.map_singleton, List.intercalate_singleton, read_writeCell cell hs hquote]
      rfl
    | cons next cells =>
      have hsplit : writeRow d (cell :: next :: cells) ++ rest =
          writeCell d cell ++ d.delimiter :: (writeRow d (next :: cells) ++ rest) := by
        simp [writeRow, List.intercalate]
      rw [hsplit, read_writeCell cell hs (by simp [d.delimiter_ne_quote]), loadRow]
      cases hload : load lim s cell with
      | error e => rfl
      | ok loaded =>
        have hloaded := (load_eq_ok hload).2
        show read lim d loaded _ = (finishCell lim loaded >>= fun t => loadRow lim t (next :: cells)) >>= _
        rw [read_delimiter (by rw [hloaded]; exact hs.inQuotes) (by rw [hloaded]; exact hs.skip)]
        cases hfinish : finishCell lim loaded with
        | error e => rfl
        | ok finished =>
          have hfresh : Fresh finished := by
            rw [(finishCell_eq_ok hfinish).2, hloaded]
            exact ⟨rfl, hs.inQuotes, hs.skip⟩
          exact ih hfresh

end

def takeRow (lim : Limits α) (s : ReadState α) (cells : List (List α)) : Except Overflow (ReadState α) :=
  loadRow lim s cells >>= finishRow lim

theorem finishRow_eq_ok_iff (hne : ∃ cell ∈ s.row ++ [s.cell], cell ≠ []) :
    finishRow lim s = .ok t ↔ s.row.length + 1 ≤ lim.maxColumns ∧ s.rows.length < lim.maxRows ∧
      t = { s with rows := s.rows ++ [s.row ++ [s.cell]], row := [], cell := [] } := by
  have hkept : ¬((s.cell.isEmpty && s.row.all List.isEmpty) = true) := by
    obtain ⟨cell, hmem, hcell⟩ := hne
    simp only [Bool.and_eq_true, List.isEmpty_iff, List.all_eq_true, not_and, not_forall]
    intro hlast
    rcases List.mem_append.1 hmem with hrow | hlastCell
    · exact ⟨cell, hrow, hcell⟩
    · exact absurd ((List.mem_singleton.1 hlastCell).trans hlast) hcell
  rw [finishRow, if_neg hkept, finishCell]
  by_cases hcolumns : lim.maxColumns ≤ s.row.length
  · rw [if_pos hcolumns]
    constructor
    · intro h; cases h
    · intro h; omega
  · rw [if_neg hcolumns]
    show pushRow lim { s with row := s.row ++ [s.cell], cell := [] } = .ok t ↔ _
    rw [pushRow]
    by_cases hrows : lim.maxRows ≤ s.rows.length
    · rw [if_pos hrows]
      constructor
      · intro h; cases h
      · intro h; omega
    · rw [if_neg hrows, Except.ok.injEq]
      constructor
      · intro h; exact ⟨by omega, by omega, h.symm⟩
      · intro h; exact h.2.2.symm

theorem takeRow_eq_ok_iff (cells : List (List α)) (hcells : cells ≠ [])
    (hne : ∃ cell ∈ s.row ++ cells, cell ≠ []) :
    takeRow lim s cells = .ok t ↔ s.row.length + cells.length ≤ lim.maxColumns ∧
      (∀ cell ∈ cells, lim.cellWidth cell ≤ lim.maxCell) ∧ s.rows.length < lim.maxRows ∧
      t = { s with rows := s.rows ++ [s.row ++ cells], row := [], cell := [] } := by
  induction cells generalizing s with
  | nil => exact absurd rfl hcells
  | cons cell cells ih =>
    by_cases hwidth : lim.maxCell < lim.cellWidth cell
    · have herror : load lim s cell = .error .cell := if_pos hwidth
      have hfail : takeRow lim s (cell :: cells) = .error .cell := by
        cases cells with
        | nil => rw [takeRow, loadRow, herror]; rfl
        | cons next cells => rw [takeRow, loadRow, herror]; rfl
      rw [hfail]
      constructor
      · intro h; cases h
      · intro h; exact absurd (h.2.1 cell List.mem_cons_self) (by omega)
    have hload : load lim s cell = .ok { s with cell := cell } := if_neg hwidth
    cases cells with
    | nil =>
      have hrow : takeRow lim s [cell] = finishRow lim { s with cell := cell } := by
        rw [takeRow, loadRow, hload]; rfl
      rw [hrow, finishRow_eq_ok_iff hne]
      simp only [List.length_singleton, List.mem_singleton, forall_eq]
      constructor
      · intro h; exact ⟨h.1, by omega, h.2.1, h.2.2⟩
      · intro h; exact ⟨h.1, h.2.2.1, h.2.2.2⟩
    | cons next cells =>
      by_cases hcolumns : lim.maxColumns ≤ s.row.length
      · have hfail : takeRow lim s (cell :: next :: cells) = .error .columns := by
          rw [takeRow, loadRow, hload]
          show (finishCell lim { s with cell := cell } >>= _) >>= _ = _
          rw [finishCell, if_pos hcolumns]
          rfl
        rw [hfail]
        constructor
        · intro h; cases h
        · intro h; simp only [List.length_cons] at h; omega
      · have hstep : takeRow lim s (cell :: next :: cells) =
            takeRow lim { s with row := s.row ++ [cell], cell := [] } (next :: cells) := by
          rw [takeRow, loadRow, hload]
          show (finishCell lim { s with cell := cell } >>= _) >>= _ = _
          rw [finishCell, if_neg hcolumns]
          rfl
        rw [hstep, ih (List.cons_ne_nil _ _) (by simpa using hne)]
        simp only [List.length_append, List.length_cons, List.length_nil, List.append_assoc, List.singleton_append,
          List.mem_cons, forall_eq_or_imp]
        constructor
        · intro h; exact ⟨by omega, ⟨by omega, h.2.1⟩, h.2.2⟩
        · intro h; exact ⟨by omega, h.2.1.2, h.2.2⟩

/-! ### All rows -/

/-- What the reader accepts of one row. -/
def RowWithin (lim : Limits α) (row : List (List α)) : Prop :=
  row.length ≤ lim.maxColumns ∧ ∀ cell ∈ row, lim.cellWidth cell ≤ lim.maxCell

/-- What the reader accepts. -/
def Within (lim : Limits α) (rows : List (List (List α))) : Prop :=
  rows.length ≤ lim.maxRows ∧ ∀ row ∈ rows, RowWithin lim row

/-- Some cell of the row has text. -/
def HasText (row : List (List α)) : Prop := ∃ cell ∈ row, cell ≠ []

theorem HasText.ne_nil {row : List (List α)} (h : HasText row) : row ≠ [] := by
  obtain ⟨cell, hmem, -⟩ := h
  exact List.ne_nil_of_mem hmem

theorem loadRow_flags (cells : List (List α)) (h : loadRow lim s cells = .ok t) :
    t.inQuotes = s.inQuotes ∧ t.skip = s.skip := by
  induction cells generalizing s with
  | nil => cases h; exact ⟨rfl, rfl⟩
  | cons cell cells ih =>
    cases cells with
    | nil =>
      rw [(load_eq_ok h).2]
      exact ⟨rfl, rfl⟩
    | cons next cells =>
      rw [loadRow] at h
      cases hload : load lim s cell with
      | error e => rw [hload] at h; cases h
      | ok loaded =>
        rw [hload] at h
        cases hfinish : finishCell lim loaded with
        | error e =>
          change (finishCell lim loaded >>= fun u => loadRow lim u (next :: cells)) = .ok t at h
          rw [hfinish] at h
          cases h
        | ok finished =>
          change (finishCell lim loaded >>= fun u => loadRow lim u (next :: cells)) = .ok t at h
          rw [hfinish] at h
          have hrest := ih h
          rw [(finishCell_eq_ok hfinish).2, (load_eq_ok hload).2] at hrest
          exact hrest

theorem finishRow_skip (h : finishRow lim s = .ok t) : t.skip = s.skip := by
  unfold finishRow at h
  split at h
  · cases h
    rfl
  · cases hcell : finishCell lim s with
    | error e =>
      rw [hcell] at h
      cases h
    | ok u =>
      rw [hcell] at h
      change pushRow lim u = .ok t at h
      unfold pushRow at h
      split at h
      · cases h
      · cases h
        rw [(finishCell_eq_ok hcell).2]

section
variable [DecidableEq α] {d : Dialect α}

/-- A row that ends in a line feed. -/
theorem read_row_lf (cells : List (List α)) (hs : Fresh s) (rest : List α) :
    read lim d s (writeRow d cells ++ d.lf :: rest) = takeRow lim s cells >>= fun t => read lim d t rest := by
  rw [read_writeRow cells hs (by simp [d.lf_ne_quote]), takeRow]
  cases hload : loadRow lim s cells with
  | error e => rfl
  | ok loaded =>
    have hflags := loadRow_flags cells hload
    exact read_lf (hflags.1.trans hs.inQuotes) (hflags.2.trans hs.skip) rest

/-- The last row, which ends with the text. -/
theorem read_row_last (cells : List (List α)) (hs : Fresh s) :
    read lim d s (writeRow d cells) = takeRow lim s cells := by
  have hend : read lim d s (writeRow d cells ++ []) = loadRow lim s cells >>= fun t => read lim d t [] :=
    read_writeRow cells hs (by simp)
  rw [List.append_nil] at hend
  exact hend

theorem read_nil (hs : Fresh s) (hrow : s.row = []) : read lim d s [] = .ok s := by
  obtain ⟨rows, row, cell, inQuotes, skip⟩ := s
  have hcell : cell = [] := hs.cell
  subst hcell hrow
  rfl

theorem writeRows_cons (row next : List (List α)) (rows : List (List (List α))) :
    writeRows d (row :: next :: rows) = writeRow d row ++ d.lf :: writeRows d (next :: rows) := by
  simp [writeRows, List.intercalate]

theorem head?_writeCell {c : α} {cell : List α} : (writeCell d (c :: cell)).head? ≠ some d.lf := by
  unfold writeCell
  split
  · exact fun h => d.lf_ne_quote (Option.some.inj h).symm
  · next hplain =>
    intro h
    have hc : c = d.lf := Option.some.inj h
    simp [Dialect.special, hc] at hplain

/-- A row with text does not begin as the second half of a line break. -/
theorem head?_writeRow {row : List (List α)} (h : HasText row) (rest : List α) :
    (writeRow d row ++ rest).head? ≠ some d.lf := by
  cases row with
  | nil => exact absurd rfl h.ne_nil
  | cons cell cells =>
    cases cell with
    | cons c cell =>
      obtain ⟨tail, htail⟩ : ∃ tail, writeRow d ((c :: cell) :: cells) = writeCell d (c :: cell) ++ tail := by
        cases cells with
        | nil => exact ⟨[], by simp [writeRow]⟩
        | cons next cells => exact ⟨d.delimiter :: writeRow d (next :: cells), by simp [writeRow, List.intercalate]⟩
      have hne : writeCell d (c :: cell) ≠ [] := by
        unfold writeCell
        split <;> simp
      rw [htail, List.append_assoc, List.head?_append_of_ne_nil _ hne]
      exact head?_writeCell
    | nil =>
      cases cells with
      | nil =>
        obtain ⟨cell, hmem, hcell⟩ := h
        exact absurd (List.mem_singleton.1 hmem) hcell
      | cons next cells =>
        have hsplit : writeRow d ([] :: next :: cells) = d.delimiter :: writeRow d (next :: cells) := by
          simp [writeRow, List.intercalate, writeCell]
        rw [hsplit]
        exact fun h => d.delimiter_ne_lf (Option.some.inj h)

theorem read_cr (hcr : d.cr ≠ d.delimiter) (hs : s.inQuotes = false) (hskip : s.skip = false) (rest : List α) :
    read lim d s (d.cr :: rest) = finishRow lim s >>= fun t => read lim d { t with skip := rest.head? = some d.lf } rest := by
  rw [read_cons hskip, step, if_neg (by simp [hs]), if_neg d.cr_ne_quote, if_neg hcr, if_pos rfl]
  cases finishRow lim s with
  | error e => rfl
  | ok t => rfl

/-- A row that ends in any line break. -/
theorem read_row_break (hcr : d.cr ≠ d.delimiter) (lineBreak : LineBreak) (cells : List (List α)) (hs : Fresh s)
    {rest : List α} (hrest : rest.head? ≠ some d.lf) :
    read lim d s (writeRow d cells ++ (lineBreak.text d ++ rest)) = takeRow lim s cells >>= fun t => read lim d t rest := by
  have hcarriage : ∀ tail : List α, (∀ t : ReadState α, t.skip = false →
      read lim d { t with skip := tail.head? = some d.lf } tail = read lim d t rest) →
      read lim d s (writeRow d cells ++ d.cr :: tail) = takeRow lim s cells >>= fun t => read lim d t rest := by
    intro tail htail
    rw [read_writeRow cells hs (by simp [d.cr_ne_quote]), takeRow]
    cases hload : loadRow lim s cells with
    | error e => rfl
    | ok loaded =>
      obtain ⟨hquotes, hskip⟩ := loadRow_flags cells hload
      refine (read_cr hcr (hquotes.trans hs.inQuotes) (hskip.trans hs.skip) tail).trans ?_
      change _ = finishRow lim loaded >>= fun t => read lim d t rest
      cases hfinish : finishRow lim loaded with
      | error e => rfl
      | ok t => exact htail t ((finishRow_skip hfinish).trans (hskip.trans hs.skip))
  cases lineBreak with
  | lf => exact read_row_lf cells hs rest
  | crlf =>
    refine hcarriage (d.lf :: rest) fun t ht => ?_
    rw [List.head?_cons, decide_eq_true rfl]
    exact read_skipped t ht d.lf rest
  | cr =>
    refine hcarriage rest fun t ht => ?_
    rw [decide_eq_false hrest, ← ht]

theorem writeLines_cons (lineBreak : LineBreak) (terminated : Bool) (row next : List (List α))
    (rows : List (List (List α))) : writeLines d lineBreak terminated (row :: next :: rows) =
      writeRow d row ++ (lineBreak.text d ++ writeLines d lineBreak terminated (next :: rows)) := by
  simp [writeLines, List.intercalate]

theorem head?_writeLines (lineBreak : LineBreak) (terminated : Bool) {row : List (List α)} (h : HasText row)
    (rows : List (List (List α))) : (writeLines d lineBreak terminated (row :: rows)).head? ≠ some d.lf := by
  cases rows with
  | nil =>
    rw [writeLines, List.map_singleton, List.intercalate_singleton]
    exact head?_writeRow h _
  | cons next rows =>
    rw [writeLines_cons]
    exact head?_writeRow h _

/-- The last row, with its line break or without. -/
theorem read_lastLine (hcr : d.cr ≠ d.delimiter) (lineBreak : LineBreak) (terminated : Bool) {row : List (List α)}
    (htext : HasText row) (hs : Fresh s) :
    read lim d s (writeLines d lineBreak terminated [row]) = .ok t ↔ takeRow lim s row = .ok t := by
  rw [writeLines, List.map_singleton, List.intercalate_singleton]
  cases terminated with
  | false => rw [if_neg Bool.false_ne_true, List.append_nil, read_row_last row hs]
  | true =>
    have hread : read lim d s (writeRow d row ++ (lineBreak.text d ++ [])) =
        takeRow lim s row >>= fun t => read lim d t [] := read_row_break hcr lineBreak row hs (by simp)
    rw [List.append_nil] at hread
    rw [if_pos rfl, hread]
    cases htake : takeRow lim s row with
    | error e =>
      constructor
      · intro h
        cases h
      · intro h
        cases h
    | ok u =>
      obtain ⟨cell, hmem, hcell⟩ := htext
      obtain ⟨-, -, -, rfl⟩ := (takeRow_eq_ok_iff row (List.ne_nil_of_mem hmem)
        ⟨cell, List.mem_append_right _ hmem, hcell⟩).1 htake
      have hend : read lim d { s with rows := s.rows ++ [s.row ++ row], row := [], cell := [] } [] =
          .ok { s with rows := s.rows ++ [s.row ++ row], row := [], cell := [] } :=
        read_nil ⟨rfl, hs.inQuotes, hs.skip⟩ rfl
      change read lim d { s with rows := s.rows ++ [s.row ++ row], row := [], cell := [] } [] = .ok t ↔ _
      rw [hend]

/-- Reading a text that holds its rows one after the other. -/
theorem read_rows_from (text : List (List (List α)) → List α)
    (hlast : ∀ (row : List (List α)) (s t : ReadState α), HasText row → Fresh s →
      (read lim d s (text [row]) = .ok t ↔ takeRow lim s row = .ok t))
    (hnext : ∀ (row next : List (List α)) (rows : List (List (List α))) (s : ReadState α), HasText next → Fresh s →
      read lim d s (text (row :: next :: rows)) =
        takeRow lim s row >>= fun t => read lim d t (text (next :: rows)))
    (row : List (List α)) (rows : List (List (List α))) (hrows : ∀ r ∈ row :: rows, HasText r) (s : ReadState α)
    (hs : Fresh s) (hrow : s.row = []) :
    read lim d s (text (row :: rows)) = .ok t ↔ s.rows.length + (row :: rows).length ≤ lim.maxRows ∧
      (∀ r ∈ row :: rows, RowWithin lim r) ∧ t = { s with rows := s.rows ++ row :: rows } := by
  induction rows generalizing s row with
  | nil =>
    have htext := hrows row List.mem_cons_self
    rw [hlast row s t htext hs, takeRow_eq_ok_iff row htext.ne_nil (by rw [hrow]; exact htext)]
    simp only [List.length_singleton, List.mem_singleton, forall_eq, RowWithin, ← hs.cell, hrow, List.length_nil,
      Nat.zero_add, List.nil_append]
    constructor
    · intro h
      refine ⟨h.2.2.1, ⟨h.1, h.2.1⟩, ?_⟩
      rw [h.2.2.2, ← hrow]
    · intro h
      refine ⟨h.2.1.1, h.2.1.2, h.1, ?_⟩
      rw [h.2.2, ← hrow]
  | cons next rows ih =>
    have htext := hrows row List.mem_cons_self
    have htake {u : ReadState α} : takeRow lim s row = .ok u ↔ row.length ≤ lim.maxColumns ∧
        (∀ cell ∈ row, lim.cellWidth cell ≤ lim.maxCell) ∧ s.rows.length < lim.maxRows ∧
        u = { s with rows := s.rows ++ [row], row := [], cell := [] } := by
      rw [takeRow_eq_ok_iff row htext.ne_nil (by rw [hrow]; exact htext)]
      simp only [hrow, List.length_nil, Nat.zero_add, List.nil_append]
    rw [hnext row next rows s (hrows next (List.mem_cons_of_mem _ List.mem_cons_self)) hs]
    by_cases hfits : RowWithin lim row ∧ s.rows.length < lim.maxRows
    · have hok := htake.2 ⟨hfits.1.1, hfits.1.2, hfits.2, rfl⟩
      rw [hok]
      show read lim d _ _ = _ ↔ _
      rw [ih next (fun r hr => hrows r (List.mem_cons_of_mem _ hr))
        { s with rows := s.rows ++ [row], row := [], cell := [] } ⟨rfl, hs.inQuotes, hs.skip⟩ rfl]
      simp only [List.length_append, List.length_cons, List.length_nil, List.append_assoc, List.singleton_append,
        List.mem_cons, forall_eq_or_imp, hfits.1, true_and, ← hrow, ← hs.cell]
      constructor
      · intro h; exact ⟨by omega, h.2⟩
      · intro h; exact ⟨by omega, h.2⟩
    · have hfail : ∃ e, takeRow lim s row = .error e := by
        cases h : takeRow lim s row with
        | error e => exact ⟨e, rfl⟩
        | ok u =>
          obtain ⟨hcolumns, hwidth, hcount, -⟩ := htake.1 h
          exact absurd ⟨⟨hcolumns, hwidth⟩, hcount⟩ hfits
      obtain ⟨e, herror⟩ := hfail
      rw [herror]
      constructor
      · intro h; cases h
      · intro h
        simp only [List.length_cons] at h
        exact absurd ⟨h.2.1 row List.mem_cons_self, by omega⟩ hfits

/-- What was written is read back exactly when it is within the limits. -/
theorem read_writeRows (rows : List (List (List α))) (hrows : ∀ row ∈ rows, HasText row) :
    read lim d {} (writeRows d rows) = .ok t ↔ Within lim rows ∧ t = { rows := rows } := by
  cases rows with
  | nil =>
    rw [show writeRows d [] = [] from rfl, read_nil ⟨rfl, rfl, rfl⟩ rfl, Except.ok.injEq]
    simp only [Within, List.length_nil, Nat.zero_le, List.not_mem_nil, false_implies, implies_true, true_and]
    exact eq_comm
  | cons row rows =>
    rw [read_rows_from (writeRows d) ?_ ?_ row rows hrows {} ⟨rfl, rfl, rfl⟩ rfl]
    · simp only [List.length_nil, Nat.zero_add, List.nil_append, Within, and_assoc]
    · intro row s t _ hs
      rw [show writeRows d [row] = writeRow d row by simp [writeRows], read_row_last row hs]
    · intro row next rows s _ hs
      rw [writeRows_cons, read_row_lf row hs]

/-- Lines that end in any way are read back like those of the writer. -/
theorem read_writeLines (hcr : d.cr ≠ d.delimiter) (lineBreak : LineBreak) (terminated : Bool) (row : List (List α))
    (rows : List (List (List α))) (hrows : ∀ r ∈ row :: rows, HasText r) :
    read lim d {} (writeLines d lineBreak terminated (row :: rows)) = .ok t ↔
      Within lim (row :: rows) ∧ t = { rows := row :: rows } := by
  rw [read_rows_from (writeLines d lineBreak terminated) (fun _ _ _ htext hs => read_lastLine hcr lineBreak terminated htext hs)
    ?_ row rows hrows {} ⟨rfl, rfl, rfl⟩ rfl]
  · simp only [List.length_nil, Nat.zero_add, List.nil_append, Within, and_assoc]
  · intro row next rows s htext hs
    rw [writeLines_cons, read_row_break hcr lineBreak row hs (head?_writeLines lineBreak terminated htext rows)]

end

end Mindwtr.Lib.Csv
