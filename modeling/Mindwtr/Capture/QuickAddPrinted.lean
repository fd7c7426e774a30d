import Mindwtr.Capture.QuickAddEscapes
import Mindwtr.Capture.QuickAddSpans

/-!
# What is printed of a line

Two lines that differ in white space alone print the same characters with the same breaks between them. Tidying prints
what was there, and cutting a text that begins a word prints what cutting it at its place does.
-/

namespace Mindwtr.Capture

open Mindwtr.Js Mindwtr.Lib

/-- The characters of a line that are not white space, each with whether a break stands before it. -/
def printedFrom : Bool → Line → List (Bool × Char)
  | _, [] => []
  | broken, c :: rest => if isTrimmed c then printedFrom true rest else (broken, c) :: printedFrom false rest

def printed (line : Line) : List (Bool × Char) := printedFrom true line

/-- Whether there is a break at the end of a line. -/
def endsBroken : Bool → Line → Bool
  | broken, [] => broken
  | _, c :: rest => endsBroken (isTrimmed c) rest

theorem printedFrom_append (broken : Bool) (line rest : Line) :
    printedFrom broken (line ++ rest) = printedFrom broken line ++ printedFrom (endsBroken broken line) rest := by
  induction line generalizing broken with
  | nil => rfl
  | cons c line ih =>
    rw [List.cons_append, printedFrom, printedFrom, endsBroken]
    by_cases hc : isTrimmed c = true
    · rw [if_pos hc, if_pos hc, ih, hc]
    · rw [if_neg hc, if_neg hc, ih, Bool.not_eq_true] at *
      rw [hc, List.cons_append]

theorem endsBroken_append (broken : Bool) (line rest : Line) :
    endsBroken broken (line ++ rest) = endsBroken (endsBroken broken line) rest := by
  induction line generalizing broken with
  | nil => rfl
  | cons c line ih => exact ih _

theorem map_snd_printedFrom (broken : Bool) (line : Line) :
    (printedFrom broken line).map (·.2) = line.filter fun c => !isTrimmed c := by
  induction line generalizing broken with
  | nil => rfl
  | cons c line ih =>
    rw [printedFrom]
    by_cases hc : isTrimmed c = true
    · rw [if_pos hc, ih, List.filter_cons_of_neg (by simp [hc])]
    · rw [if_neg hc, List.map_cons, ih, List.filter_cons_of_pos (by simp [hc])]

theorem length_printedFrom (broken : Bool) (line : Line) :
    (printedFrom broken line).length = line.countP fun c => !isTrimmed c := by
  have hlength := congrArg List.length (map_snd_printedFrom broken line)
  rw [List.length_map] at hlength
  rw [hlength, List.countP_eq_length_filter]

/-- A break before a line is seen at its first character alone. -/
theorem printed_of_printedFrom {broken : Bool} {line other : Line}
    (h : printedFrom broken line = printedFrom broken other) : printed line = printed other := by
  have hhead : ∀ (line : Line) (broken : Bool),
      printed line =
        ((printedFrom broken line).take 1).map (fun c => (true, c.2)) ++ (printedFrom broken line).drop 1 := by
    intro line
    induction line with
    | nil => exact fun _ => rfl
    | cons c line ih =>
      intro broken
      rw [printed, printedFrom, printedFrom]
      split_ifs
      · exact ih true
      · rfl
  rw [hhead line broken, hhead other broken, h]

/-! ### White space -/

/-- Printed alike after anything. -/
def PrintsAs (line other : Line) : Prop :=
  ∀ broken, printedFrom broken line = printedFrom broken other ∧ endsBroken broken line = endsBroken broken other

theorem PrintsAs.append {line other rest last : Line} (h : PrintsAs line other) (hrest : PrintsAs rest last) :
    PrintsAs (line ++ rest) (other ++ last) := by
  intro broken
  rw [printedFrom_append, printedFrom_append, endsBroken_append, endsBroken_append, (h broken).1, (h broken).2,
    (hrest _).1, (hrest _).2]
  exact ⟨rfl, rfl⟩

theorem printedFrom_white {line : Line} (h : ∀ c ∈ line, isTrimmed c = true) (broken : Bool) :
    printedFrom broken line = [] := by
  induction line generalizing broken with
  | nil => rfl
  | cons c line ih =>
    rw [printedFrom, if_pos (h c List.mem_cons_self)]
    exact ih (fun d hd => h d (List.mem_cons_of_mem c hd)) true

theorem endsBroken_white {line : Line} (hne : line ≠ []) (h : ∀ c ∈ line, isTrimmed c = true) (broken : Bool) :
    endsBroken broken line = true := by
  induction line generalizing broken with
  | nil => exact absurd rfl hne
  | cons c line ih =>
    rw [endsBroken, h c List.mem_cons_self]
    cases line with
    | nil => rfl
    | cons d line => exact ih (by simp) (fun e he => h e (List.mem_cons_of_mem c he)) true

/-- White space is printed as one blank is. -/
theorem printsAs_blank {line : Line} (hne : line ≠ []) (h : ∀ c ∈ line, isTrimmed c = true) : PrintsAs [' '] line := by
  have hblank : ∀ c ∈ [' '], isTrimmed c = true := List.forall_mem_singleton.2 (by decide)
  intro broken
  rw [printedFrom_white h, printedFrom_white hblank, endsBroken_white hne h, endsBroken_white (by simp) hblank]
  exact ⟨rfl, rfl⟩

/-- A run with white space in it is white space. -/
theorem all_isTrimmed_of_any {run : Line} (hchain : run.IsChain fun a b => (isTrimmed a == isTrimmed b) = true)
    (hany : run.any isTrimmed = true) : ∀ c ∈ run, isTrimmed c = true := by
  induction run with
  | nil => simp
  | cons c run ih =>
    have hc := isTrimmed_head_of_any hchain hany
    cases run with
    | nil => simpa using hc
    | cons d run =>
      rw [List.isChain_cons_cons, beq_iff_eq] at hchain
      have hd : isTrimmed d = true := hchain.1 ▸ hc
      have hrest := ih hchain.2 (by simp [hd])
      exact List.forall_mem_cons.2 ⟨hc, hrest⟩

theorem printsAs_collapseRuns (atLeast : Nat) (line : Line) : PrintsAs (collapseRuns atLeast line) line := by
  have hruns : ∀ runs : List Line,
      (∀ run ∈ runs, run ≠ [] ∧ run.IsChain fun a b => (isTrimmed a == isTrimmed b) = true) →
      PrintsAs (runs.flatMap fun run => if run.any isTrimmed && decide (atLeast ≤ run.length) then [' '] else run)
        runs.flatten := by
    intro runs
    induction runs with
    | nil => exact fun _ _ => ⟨rfl, rfl⟩
    | cons run runs ih =>
      intro hmem
      obtain ⟨⟨hne, hchain⟩, hmem⟩ := List.forall_mem_cons.1 hmem
      rw [List.flatMap_cons, List.flatten_cons]
      apply PrintsAs.append _ (ih hmem)
      split_ifs with hlong
      · rw [Bool.and_eq_true] at hlong
        exact printsAs_blank hne (all_isTrimmed_of_any hchain hlong.1)
      · exact fun _ => ⟨rfl, rfl⟩
  have hsplit := hruns (line.splitBy fun a b => isTrimmed a == isTrimmed b) fun run hrun =>
    ⟨List.ne_nil_of_mem_splitBy hrun, List.isChain_of_mem_splitBy hrun⟩
  rw [List.flatten_splitBy] at hsplit
  exact hsplit

theorem printed_dropWhile (line : Line) : printed (line.dropWhile isTrimmed) = printed line := by
  induction line with
  | nil => rfl
  | cons c line ih =>
    rw [List.dropWhile_cons]
    split_ifs with hc
    · rw [ih, printed, printed, printedFrom, if_pos hc]
    · rfl

theorem printed_rdropWhile (line : Line) : printed (line.rdropWhile isTrimmed) = printed line := by
  have hwhite : ∀ c ∈ line.rtakeWhile isTrimmed, isTrimmed c = true := fun c hc => List.mem_rtakeWhile_imp hc
  conv_rhs => rw [← List.rdropWhile_append_rtakeWhile (p := isTrimmed) (l := line)]
  rw [printed, printed, printedFrom_append, printedFrom_white hwhite, List.append_nil]

/-- Tidying touches white space alone. -/
theorem printed_tidy (line : Line) : printed (tidy line) = printed line := by
  rw [tidy, trimLine, printed_rdropWhile, printed_dropWhile]
  exact (printsAs_collapseRuns 2 line true).1

theorem printed_stripToken (line raw : Line) : printed (stripToken line raw) = printed (removeFirst line raw) :=
  printed_tidy _

/-! ### Cutting at a place -/

theorem prefix_of_indexOf? {text : Line} : ∀ {line : Line} {index : Nat}, indexOf? text line = some index →
    text <+: line.drop index := by
  intro line
  induction line with
  | nil =>
    intro index h
    rw [indexOf?] at h
    split_ifs at h with hempty
    rw [List.isEmpty_iff.1 hempty]
    exact List.nil_prefix
  | cons c line ih =>
    intro index h
    rw [indexOf?] at h
    split_ifs at h with hprefix
    · obtain rfl := Option.some.inj h
      exact List.isPrefixOf_iff_prefix.1 hprefix
    · obtain ⟨before, hbefore, rfl⟩ := Option.map_eq_some_iff.1 h
      exact ih hbefore

/-- A text with a break before it, that stands between as much text here and there, is cut alike. -/
theorem printed_cut {raw before after left right : Line} (hraw : ∀ c ∈ raw.head?, isTrimmed c = false) (hne : raw ≠ [])
    (hbroken : endsBroken true left = true)
    (hline : printed (before ++ (raw ++ after)) = printed (left ++ (raw ++ right)))
    (hlength : (printed (raw ++ after)).length = (printed (raw ++ right)).length) :
    printed (before ++ after) = printed (left ++ right) := by
  have hrest : (printedFrom (endsBroken true before) (raw ++ after)).length =
      (printedFrom (endsBroken true left) (raw ++ right)).length := by
    rw [printed, printed] at hlength
    rw [length_printedFrom] at hlength ⊢
    rw [hlength, length_printedFrom, length_printedFrom]
  rw [printed, printed, printedFrom_append true before, printedFrom_append true left] at hline
  obtain ⟨hbefore, hafter⟩ := List.append_inj' hline hrest
  rw [hbroken] at hafter
  have hstart : endsBroken true before = true := by
    obtain ⟨c, raw, rfl⟩ := List.exists_cons_of_ne_nil hne
    have hc : isTrimmed c = false := hraw c rfl
    rw [List.cons_append, List.cons_append, printedFrom, printedFrom, if_neg (by simp [hc]), if_neg (by simp [hc])]
      at hafter
    exact (Prod.mk.inj (List.cons.inj hafter).1).1
  rw [hstart, printedFrom_append, printedFrom_append] at hafter
  have hsame := printed_of_printedFrom (List.append_cancel_left hafter)
  rw [printed, printed, printedFrom_append, printedFrom_append, hstart, hbroken, hbefore]
  exact congrArg _ hsame

/-! ### Spans that are cut out -/

theorem cutOutFrom_append (place : Nat) (spans : List Span) (line rest : Line) :
    cutOutFrom place spans (line ++ rest) =
      cutOutFrom place spans line ++ cutOutFrom (place + line.length) spans rest := by
  simp [cutOutFrom, List.zipIdx_append]

theorem cutOutFrom_congr {place : Nat} {spans others : List Span} {line : Line}
    (h : ∀ i, place ≤ i → i < place + line.length → spans.any (·.covers i) = others.any (·.covers i)) :
    cutOutFrom place spans line = cutOutFrom place others line := by
  rw [cutOutFrom, cutOutFrom]
  congr 1
  apply List.filter_congr
  intro c hc
  obtain ⟨hle, hlt, -⟩ := List.mem_zipIdx hc
  rw [h c.2 hle hlt]

theorem cutOutFrom_nil (place : Nat) (line : Line) : cutOutFrom place [] line = line := by
  simp [cutOutFrom]

/-- No span, no cut. -/
theorem cutOutFrom_of_uncovered {place : Nat} {spans : List Span} {line : Line}
    (h : ∀ i, place ≤ i → i < place + line.length → spans.any (·.covers i) = false) :
    cutOutFrom place spans line = line := by
  have hnone : cutOutFrom place spans line = cutOutFrom place [] line := cutOutFrom_congr h
  rw [hnone, cutOutFrom_nil]

theorem cutOutFrom_of_covered {place : Nat} {spans : List Span} {line : Line}
    (h : ∀ i, place ≤ i → i < place + line.length → spans.any (·.covers i) = true) :
    cutOutFrom place spans line = [] := by
  rw [cutOutFrom, List.map_eq_nil_iff, List.filter_eq_nil_iff]
  intro c hc
  obtain ⟨hle, hlt, -⟩ := List.mem_zipIdx hc
  simp [h c.2 hle hlt]

theorem cutOut_singleton {s : Span} {line : Line} (h : s.raw <+: line.drop s.index) :
    cutOut [s] line = line.take s.index ++ line.drop s.finish := by
  obtain ⟨rest, hrest⟩ := h
  have hline : line = line.take s.index ++ (s.raw ++ rest) := by rw [hrest, List.take_append_drop]
  have hdrop : line.drop s.finish = rest := by
    rw [Span.finish, ← List.drop_drop, ← hrest, List.drop_left]
  have hbefore : cutOutFrom 0 [s] (line.take s.index) = line.take s.index := by
    apply cutOutFrom_of_uncovered
    intro i _ hi
    have hle := List.length_take_le s.index line
    simp [Span.covers]
    omega
  by_cases hne : s.raw = []
  · have hnone : cutOutFrom 0 [s] line = line := by
      apply cutOutFrom_of_uncovered
      intro i _ _
      simp [Span.covers, Span.finish, hne]
    rw [cutOut, hnone, hdrop]
    rw [hne, List.nil_append] at hline
    exact hline
  · have hlength : (line.take s.index).length = s.index := by
      have hpos : 0 < (line.drop s.index).length := by
        rw [← hrest, List.length_append]
        exact Nat.add_pos_left (List.length_pos_iff.2 hne) _
      rw [List.length_drop] at hpos
      rw [List.length_take]
      omega
    have hraw : cutOutFrom s.index [s] s.raw = [] := by
      apply cutOutFrom_of_covered
      intro i hle hlt
      simp [Span.covers, Span.finish, hle, hlt]
    have hafter : cutOutFrom s.finish [s] rest = rest := by
      apply cutOutFrom_of_uncovered
      intro i hle _
      simp [Span.covers]
      omega
    rw [hdrop, cutOut]
    conv_lhs => rw [hline]
    rw [cutOutFrom_append, cutOutFrom_append, hbefore, hlength, Nat.zero_add, hraw, List.nil_append]
    exact congrArg _ hafter

end Mindwtr.Capture
