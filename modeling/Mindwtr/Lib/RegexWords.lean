import Mindwtr.Lib.Regex

/-!
# The words of a pattern

A pattern without groups, places and looks ahead stands for a language, and a run of it at a place finds exactly the
words of that language that begin there (`mem_run_iff`). Which of them comes first depends on the priorities; where
only one word fits, it is that one (`head?_run_of_unique`), and a repetition of single letters takes all it can
(`head?_run_letters`). The texts of a search of all matches are read off one after the other from what is matched at
each place (`searchAll_texts`).
-/

namespace Mindwtr.Lib

namespace Regex

variable {α : Type}

inductive Plain : Regex α → Prop
  | empty : Plain .empty
  | letter (accepts : α → Bool) : Plain (.letter accepts)
  | seq {first second : Regex α} (hfirst : Plain first) (hsecond : Plain second) : Plain (.seq first second)
  | either {left right : Regex α} (hleft : Plain left) (hright : Plain right) : Plain (.either left right)
  | many {greedy : Bool} {body : Regex α} (hbody : Plain body) : Plain (.many greedy body)

def language : Regex α → Language α
  | letter accepts => {w | ∃ a, accepts a = true ∧ w = [a]}
  | seq first second => language first * language second
  | either left right => language left + language right
  | many _ body => KStar.kstar (language body)
  | _ => 1

/-- The place behind a word. -/
def Cursor.past (c : Cursor α) (w rest : List α) : Cursor α := { c with before := w.getLast?.or c.before, rest }

@[simp] theorem Cursor.past_rest (c : Cursor α) (w rest : List α) : (c.past w rest).rest = rest := rfl

@[simp] theorem Cursor.past_groups (c : Cursor α) (w rest : List α) : (c.past w rest).groups = c.groups := rfl

theorem Cursor.past_nil (c : Cursor α) : c.past [] c.rest = c := rfl

theorem Cursor.past_past (c : Cursor α) (v w rest rest' : List α) :
    (c.past v rest).past w rest' = c.past (v ++ w) rest' := by
  simp [Cursor.past, List.getLast?_append, Option.or_assoc]

theorem Cursor.consumed_past {c : Cursor α} {w rest : List α} (h : c.rest = w ++ rest) :
    c.consumed (c.past w rest) = w := by
  simp [Cursor.consumed, h]

/-! ### Runs and words -/

theorem mem_repeats_succ_iff {greedy : Bool} {body : Cursor α → List (Cursor α)} {rounds : Nat} {c d : Cursor α} :
    d ∈ repeats greedy body (rounds + 1) c ↔
      d = c ∨ ∃ next ∈ body c, next.rest.length < c.rest.length ∧ d ∈ repeats greedy body rounds next := by
  rw [repeats]
  cases greedy <;> simp [and_assoc, or_comm]

/-- The places behind the words of a language. -/
def Finds (body : Cursor α → List (Cursor α)) (L : Language α) : Prop :=
  ∀ c d, d ∈ body c ↔ ∃ w rest, c.rest = w ++ rest ∧ w ∈ L ∧ d = c.past w rest

theorem mem_repeats_iff {body : Cursor α → List (Cursor α)} {L : Language α} (hbody : Finds body L) (greedy : Bool)
    (rounds : Nat) (c d : Cursor α) :
    d ∈ repeats greedy body rounds c ↔ ∃ (words : List (List α)) (rest : List α), words.length ≤ rounds ∧
      c.rest = words.flatten ++ rest ∧ (∀ w ∈ words, w ∈ L ∧ w ≠ []) ∧ d = c.past words.flatten rest := by
  induction rounds generalizing c with
  | zero =>
    constructor
    · intro hd
      obtain rfl := List.mem_singleton.1 hd
      exact ⟨[], d.rest, by simp, rfl, by simp, rfl⟩
    · rintro ⟨words, rest, hlength, hrest, -, rfl⟩
      obtain rfl := List.length_eq_zero_iff.1 (Nat.le_zero.1 hlength)
      obtain rfl : c.rest = rest := hrest
      exact List.mem_singleton.2 rfl
  | succ rounds ih =>
    rw [mem_repeats_succ_iff]
    constructor
    · rintro (rfl | ⟨next, hnext, hshorter, hd⟩)
      · exact ⟨[], d.rest, by simp, rfl, by simp, rfl⟩
      · obtain ⟨w, rest, hc, hw, rfl⟩ := (hbody c next).1 hnext
        obtain ⟨words, rest', hlength, hrest, hwords, rfl⟩ := (ih _).1 hd
        have hne : w ≠ [] := by
          rintro rfl
          rw [hc] at hshorter
          simp at hshorter
        refine ⟨w :: words, rest', by simpa using hlength, ?_, ?_, ?_⟩
        · rw [Cursor.past_rest] at hrest
          rw [hc, hrest, List.flatten_cons, List.append_assoc]
        · intro v hv
          rcases List.mem_cons.1 hv with rfl | hv
          · exact ⟨hw, hne⟩
          · exact hwords v hv
        · rw [Cursor.past_past, List.flatten_cons]
    · rintro ⟨words, rest, hlength, hrest, hwords, rfl⟩
      cases words with
      | nil =>
        obtain rfl : c.rest = rest := hrest
        exact .inl rfl
      | cons w words =>
        obtain ⟨hw, hne⟩ := hwords w (by simp)
        rw [List.flatten_cons, List.append_assoc] at hrest
        refine .inr ⟨c.past w (words.flatten ++ rest), (hbody c _).2 ⟨w, _, hrest, hw, rfl⟩, ?_, ?_⟩
        · have hpos := List.length_pos_of_ne_nil hne
          rw [Cursor.past_rest, hrest]
          simp only [List.length_append]
          omega
        · refine (ih _).2 ⟨words, rest, by simpa using hlength, rfl, fun v hv => hwords v (by simp [hv]), ?_⟩
          rw [Cursor.past_past, List.flatten_cons]

theorem length_le_flatten {words : List (List α)} (h : ∀ w ∈ words, w ≠ []) : words.length ≤ words.flatten.length := by
  induction words with
  | nil => simp
  | cons w words ih =>
    have hpos := List.length_pos_of_ne_nil (h w (by simp))
    have hrest := ih fun v hv => h v (by simp [hv])
    simp only [List.length_cons, List.flatten_cons, List.length_append]
    omega

/-- A run of a plain pattern finds the words of its language. -/
theorem mem_run_iff {r : Regex α} (h : Plain r) : Finds (run r) (language r) := by
  induction h with
  | empty =>
    intro c d
    rw [run, List.mem_singleton]
    constructor
    · rintro rfl
      exact ⟨[], d.rest, rfl, Language.nil_mem_one, rfl⟩
    · rintro ⟨w, rest, hrest, hw, rfl⟩
      obtain rfl := Language.mem_one w |>.1 hw
      obtain rfl : c.rest = rest := hrest
      rfl
  | letter accepts =>
    intro c d
    unfold run
    constructor
    · intro hd
      split at hd
      · rename_i a rest hrest
        split_ifs at hd with ha
        · obtain rfl := List.mem_singleton.1 hd
          exact ⟨[a], rest, hrest, ⟨a, ha, rfl⟩, rfl⟩
        · cases hd
      · cases hd
    · rintro ⟨w, rest, hrest, ⟨a, ha, rfl⟩, rfl⟩
      rw [List.singleton_append] at hrest
      simp [hrest, ha, Cursor.past]
  | seq _ _ ihfirst ihsecond =>
    intro c d
    rw [run, List.mem_flatMap]
    constructor
    · rintro ⟨next, hnext, hd⟩
      obtain ⟨v, rest, hc, hv, rfl⟩ := (ihfirst c next).1 hnext
      obtain ⟨w, rest', hrest, hw, rfl⟩ := (ihsecond _ d).1 hd
      refine ⟨v ++ w, rest', ?_, Language.append_mem_mul hv hw, Cursor.past_past ..⟩
      rw [hc, ← Cursor.past_rest c v rest, hrest, List.append_assoc]
    · rintro ⟨w, rest, hc, hw, rfl⟩
      obtain ⟨v, hv, w, hw', rfl⟩ := Language.mem_mul.1 hw
      rw [List.append_assoc] at hc
      refine ⟨c.past v (w ++ rest), (ihfirst c _).2 ⟨v, _, hc, hv, rfl⟩, (ihsecond _ _).2 ?_⟩
      exact ⟨w, rest, rfl, hw', (Cursor.past_past ..).symm⟩
  | either _ _ ihleft ihright =>
    intro c d
    rw [run, List.mem_append, ihleft c d, ihright c d]
    constructor
    · rintro (⟨w, rest, hc, hw, rfl⟩ | ⟨w, rest, hc, hw, rfl⟩)
      · exact ⟨w, rest, hc, .inl hw, rfl⟩
      · exact ⟨w, rest, hc, .inr hw, rfl⟩
    · rintro ⟨w, rest, hc, hw | hw, rfl⟩
      · exact .inl ⟨w, rest, hc, hw, rfl⟩
      · exact .inr ⟨w, rest, hc, hw, rfl⟩
  | many _ ih =>
    intro c d
    rw [run, mem_repeats_iff ih]
    constructor
    · intro hd
      obtain ⟨words, rest, -, hc, hwords, hpast⟩ := hd
      exact ⟨words.flatten, rest, hc, Language.mem_kstar_iff_exists_nonempty.2 ⟨words, rfl, hwords⟩, hpast⟩
    · intro hd
      obtain ⟨w, rest, hc, hw, hpast⟩ := hd
      obtain ⟨words, hflatten, hwords⟩ := Language.mem_kstar_iff_exists_nonempty.1 hw
      refine ⟨words, rest, ?_, hflatten ▸ hc, hwords, hflatten ▸ hpast⟩
      have hlength := length_le_flatten fun w hw => (hwords w hw).2
      rw [hc, hflatten, List.length_append]
      omega

/-! ### Letters -/

theorem language_seq (first second : Regex α) : language (.seq first second) = language first * language second := rfl

theorem language_either (left right : Regex α) : language (.either left right) = language left + language right := rfl

theorem language_many (greedy : Bool) (body : Regex α) : language (.many greedy body) = KStar.kstar (language body) := rfl

theorem mem_language_letter {accepts : α → Bool} {w : List α} :
    w ∈ language (letter accepts) ↔ ∃ a, accepts a = true ∧ w = [a] := Iff.rfl

theorem mem_language_many_letter {greedy : Bool} {accepts : α → Bool} {w : List α} :
    w ∈ language (many greedy (letter accepts)) ↔ ∀ a ∈ w, accepts a = true := by
  rw [language_many, Language.mem_kstar]
  constructor
  · rintro ⟨words, rfl, hwords⟩ a ha
    obtain ⟨word, hword, ha⟩ := List.mem_flatten.1 ha
    obtain ⟨b, hb, rfl⟩ := mem_language_letter.1 (hwords word hword)
    obtain rfl := List.mem_singleton.1 ha
    exact hb
  · intro h
    refine ⟨w.map fun a => [a], ?_, ?_⟩
    · induction w with
      | nil => rfl
      | cons a w ih => simpa using ih fun b hb => h b (by simp [hb])
    · intro word hword
      obtain ⟨a, ha, rfl⟩ := List.mem_map.1 hword
      exact mem_language_letter.2 ⟨a, h a ha, rfl⟩

theorem mem_language_plus_letter {accepts : α → Bool} {w : List α} :
    w ∈ language (plus (letter accepts)) ↔ w ≠ [] ∧ ∀ a ∈ w, accepts a = true := by
  rw [plus, language_seq, Language.mem_mul]
  constructor
  · rintro ⟨_, hfirst, rest, hrest, rfl⟩
    obtain ⟨a, ha, rfl⟩ := mem_language_letter.1 hfirst
    refine ⟨by simp, ?_⟩
    intro b hb
    rcases List.mem_cons.1 hb with rfl | hb
    · exact ha
    · exact mem_language_many_letter.1 hrest b hb
  · rintro ⟨hne, h⟩
    obtain ⟨a, rest, rfl⟩ := List.exists_cons_of_ne_nil hne
    refine ⟨[a], mem_language_letter.2 ⟨a, h a (by simp), rfl⟩, rest, ?_, rfl⟩
    exact mem_language_many_letter.2 fun b hb => h b (by simp [hb])

theorem mem_language_optional {r : Regex α} {w : List α} :
    w ∈ language (optional r) ↔ w ∈ language r ∨ w = [] := by
  rw [optional, language_either, Language.mem_add]
  exact or_congr_right (Language.mem_one w)

theorem plain_plus {r : Regex α} (h : Plain r) : Plain (plus r) := .seq h (.many h)

theorem plain_optional {r : Regex α} (h : Plain r) : Plain (optional r) := .either h .empty

/-! ### The preferred word -/

theorem head?_of_mem_iff {β : Type} {l : List β} {o : Option β} (h : ∀ d, d ∈ l ↔ o = some d) : l.head? = o := by
  cases l with
  | nil =>
    cases o with
    | none => rfl
    | some d => exact absurd ((h d).2 rfl) (by simp)
  | cons d l => exact ((h d).1 (by simp)).symm

/-- Where at most one word fits, the run finds it. -/
theorem head?_run_of_unique {r : Regex α} (h : Plain r) {c : Cursor α} {word : Option (List α)}
    (hword : ∀ w, w ∈ language r ∧ w <+: c.rest ↔ word = some w) :
    (run r c).head? = word.map fun w => c.past w (c.rest.drop w.length) := by
  apply head?_of_mem_iff
  intro d
  rw [mem_run_iff h]
  constructor
  · rintro ⟨w, rest, hc, hw, rfl⟩
    rw [(hword w).1 ⟨hw, ⟨rest, hc.symm⟩⟩, hc]
    simp
  · intro hd
    obtain ⟨w, hw, rfl⟩ := Option.map_eq_some_iff.1 hd
    obtain ⟨hin, rest, hc⟩ := (hword w).2 hw
    exact ⟨w, rest, hc.symm, hin, by rw [← hc]; simp⟩

theorem head?_repeats_letter (accepts : α → Bool) (rounds : Nat) (c : Cursor α) (h : c.rest.length ≤ rounds) :
    (repeats true (run (letter accepts)) rounds c).head? =
      some (c.past (c.rest.takeWhile accepts) (c.rest.dropWhile accepts)) := by
  induction rounds generalizing c with
  | zero =>
    have hnil := List.length_eq_zero_iff.1 (Nat.le_zero.1 h)
    cases c
    dsimp only at hnil
    subst hnil
    rfl
  | succ rounds ih =>
    rw [repeats]
    obtain ⟨before, rest, groups⟩ := c
    cases rest with
    | nil => simp [run, Cursor.past]
    | cons a rest =>
      cases ha : accepts a with
      | false => simp [run, ha, Cursor.past]
      | true =>
        have hnext := ih { before := some a, rest := rest, groups := groups } (by simpa using h)
        rw [if_pos rfl, List.head?_append]
        have hfirst : (run (letter accepts) { before, rest := a :: rest, groups }).filter
            (fun d => d.rest.length < (a :: rest).length) = [{ before := some a, rest := rest, groups := groups }] := by
          simp [run, ha]
        rw [hfirst, List.flatMap_singleton, hnext, Option.some_or]
        simp [Cursor.past, ha, List.getLast?_cons]

/-- Some letters, and as many as there are. -/
theorem head?_run_letters (accepts : α → Bool) (c : Cursor α) :
    (run (plus (letter accepts)) c).head? =
      if c.rest.takeWhile accepts = [] then none
      else some (c.past (c.rest.takeWhile accepts) (c.rest.dropWhile accepts)) := by
  obtain ⟨before, rest, groups⟩ := c
  cases rest with
  | nil => rfl
  | cons a rest =>
    cases ha : accepts a with
    | false => simp [plus, run, ha]
    | true =>
      have hnext := head?_repeats_letter accepts rest.length { before := some a, rest := rest, groups := groups } le_rfl
      have hfirst : run (letter accepts) { before, rest := a :: rest, groups } =
          [{ before := some a, rest := rest, groups := groups }] := by
        simp [run, ha]
      rw [plus, run, hfirst, List.flatMap_singleton, run, hnext]
      simp [Cursor.past, ha, List.getLast?_cons]

/-! ### The texts of a search -/

/-- The texts that are matched one after the other; `skip` letters belong to the one before. -/
def textsFrom (next : List α → Option (List α)) : Nat → List α → List (List α)
  | _, [] => []
  | skip + 1, _ :: rest => textsFrom next skip rest
  | 0, a :: rest =>
    match next (a :: rest) with
    | some text => text :: textsFrom next (text.length - 1) rest
    | none => textsFrom next 0 rest

/-- Where a match depends on what follows only, so do the texts of a search. -/
theorem searchAll_texts {r : Regex α} {next : List α → Option (List α)}
    (h : ∀ index before rest, (matchAt r index { before, rest }).map (·.text) = next rest) (line : List α) :
    (searchAll r line).map (·.text) = textsFrom next 0 line := by
  have hfrom : ∀ (line : List α) (index : Nat) (before : Option α) (skip : Nat),
      (searchAllFrom r index before skip line).map (·.text) = textsFrom next skip line := by
    intro line
    induction line with
    | nil =>
      intro index before skip
      cases skip <;> rfl
    | cons a rest ih =>
      intro index before skip
      cases skip with
      | succ skip => exact ih _ _ skip
      | zero =>
        rw [searchAllFrom, textsFrom, ← h index before]
        cases matchAt r index { before, rest := a :: rest } with
        | none => exact ih _ _ 0
        | some found =>
          rw [List.map_cons, ih]
          rfl
  exact hfrom line 0 none 0

theorem textsFrom_skip (next : List α → Option (List α)) (u rest : List α) :
    textsFrom next u.length (u ++ rest) = textsFrom next 0 rest := by
  induction u with
  | nil => rfl
  | cons a u ih => exact ih

theorem textsFrom_append {next : List α → Option (List α)} {text rest : List α} (h : next (text ++ rest) = some text)
    (hne : text ≠ []) : textsFrom next 0 (text ++ rest) = text :: textsFrom next 0 rest := by
  obtain ⟨a, u, rfl⟩ := List.exists_cons_of_ne_nil hne
  rw [List.cons_append] at h ⊢
  rw [textsFrom, h]
  exact congrArg _ (textsFrom_skip next u rest)

theorem textsFrom_cons {next : List α → Option (List α)} {a : α} {rest : List α} (h : next (a :: rest) = none) :
    textsFrom next 0 (a :: rest) = textsFrom next 0 rest := by
  rw [textsFrom, h]

theorem textsFrom_head {next : List α → Option (List α)} {text line : List α} (h : next line = some text)
    (hne : line ≠ []) : ∃ more, textsFrom next 0 line = text :: more := by
  obtain ⟨a, rest, rfl⟩ := List.exists_cons_of_ne_nil hne
  exact ⟨_, by rw [textsFrom, h]⟩

/-! ### Patterns for a whole line -/

theorem sequence_cons (part : Regex α) (parts : List (Regex α)) :
    sequence (part :: parts) = seq part (sequence parts) := rfl

theorem searchFrom_lineStart (r : Regex α) (index : Nat) (a : α) (line : List α) :
    searchFrom (seq lineStart r) index (some a) line = none := by
  induction line generalizing index a with
  | nil => simp [searchFrom, matchAt, run]
  | cons b line ih => simp [searchFrom, matchAt, run, ih]

/-- A pattern that starts at the start of a line is tried there only. -/
theorem search_lineStart (r : Regex α) (line : List α) :
    search (seq lineStart r) line = matchAt r 0 { before := none, rest := line } := by
  have hstart : matchAt (seq lineStart r) 0 { before := none, rest := line } =
      matchAt r 0 { before := none, rest := line } := by
    simp [matchAt, run]
  cases line with
  | nil => rw [search, searchFrom, hstart]
  | cons a line => rw [search, searchFrom, searchFrom_lineStart, Option.or_none, hstart]

theorem head?_flatMap {β γ : Type} {l : List β} {f : β → List γ} {b : β} {c : γ} (hl : l.head? = some b)
    (hf : (f b).head? = some c) : (l.flatMap f).head? = some c := by
  obtain ⟨l, rfl⟩ := List.head?_eq_some_iff.1 hl
  rw [List.flatMap_cons, List.head?_append, hf, Option.some_or]

end Regex

end Mindwtr.Lib
