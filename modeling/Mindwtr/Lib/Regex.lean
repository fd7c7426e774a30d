import Mathlib

/-!
# Backtracking patterns

Patterns over the letters of any type, with the priorities of a backtracking matcher: an alternative tries its left
side first, a greedy repetition one more round first and a lazy one last, and no round of a repetition is empty. A run
of a pattern lists what it can match at one place, the match it prefers first; a search takes the first place that has
a match. A pattern that cannot match without a letter of a kind finds nothing in a line without such letters, and
what a search of all matches finds is matched where it says.
-/

namespace Mindwtr.Lib

inductive Regex (α : Type) where
  | empty
  | letter (accepts : α → Bool)
  | seq (first second : Regex α)
  | either (left right : Regex α)
  | many (greedy : Bool) (body : Regex α)
  | group (number : Nat) (body : Regex α)
  /-- What follows matches the body; nothing is consumed. -/
  | ahead (body : Regex α)
  | notAhead (body : Regex α)
  | lineStart
  | lineEnd
  /-- One side of the place is a letter of a word and the other is not. -/
  | boundary (isWord : α → Bool)

namespace Regex

variable {α : Type}

def plus (r : Regex α) : Regex α := seq r (many true r)

def optional (r : Regex α) : Regex α := either r empty

/-- These letters, one after the other. -/
def word [BEq α] (letters : List α) : Regex α := letters.foldr (fun a r => seq (letter (· == a)) r) empty

def oneOf (alternatives : List (Regex α)) : Regex α := alternatives.foldr either (letter fun _ => false)

def sequence (parts : List (Regex α)) : Regex α := parts.foldr seq empty

/-! ### Runs -/

/-- A place in a line: the letter before it, what follows, and the groups matched on the way there, the last first. -/
structure Cursor (α : Type) where
  before : Option α
  rest : List α
  groups : List (Nat × List α) := []
deriving DecidableEq, Repr

/-- What was consumed on the way from one place to a later one. -/
def Cursor.consumed (c d : Cursor α) : List α := c.rest.take (c.rest.length - d.rest.length)

/-- At most `rounds` rounds of a repetition, none of them empty. -/
def repeats (greedy : Bool) (body : Cursor α → List (Cursor α)) : Nat → Cursor α → List (Cursor α)
  | 0, c => [c]
  | rounds + 1, c =>
    let more := ((body c).filter fun d => d.rest.length < c.rest.length).flatMap (repeats greedy body rounds)
    if greedy then more ++ [c] else c :: more

def run : Regex α → Cursor α → List (Cursor α)
  | empty, c => [c]
  | letter accepts, c =>
    match c.rest with
    | a :: rest => if accepts a then [{ c with before := some a, rest }] else []
    | [] => []
  | seq first second, c => (run first c).flatMap (run second)
  | either left right, c => run left c ++ run right c
  | many greedy body, c => repeats greedy (run body) c.rest.length c
  | group number body, c => (run body c).map fun d => { d with groups := (number, c.consumed d) :: d.groups }
  | ahead body, c => ((run body c).take 1).map fun d => { c with groups := d.groups }
  | notAhead body, c => if (run body c).isEmpty then [c] else []
  | lineStart, c => if c.before.isNone then [c] else []
  | lineEnd, c => if c.rest.isEmpty then [c] else []
  | boundary isWord, c => if c.before.any isWord != c.rest.head?.any isWord then [c] else []

/-! ### Searches -/

structure Found (α : Type) where
  index : Nat
  text : List α
  groups : List (Nat × List α)
deriving DecidableEq, Repr

/-- What a group matched last. -/
def Found.group? (found : Found α) (number : Nat) : Option (List α) := found.groups.lookup number

/-- The preferred match at one place. -/
def matchAt (r : Regex α) (index : Nat) (c : Cursor α) : Option (Found α) :=
  (run r c).head?.map fun d => { index, text := c.consumed d, groups := d.groups }

/-- The first match in what follows a place. -/
def searchFrom (r : Regex α) (index : Nat) (before : Option α) : List α → Option (Found α)
  | [] => matchAt r index { before, rest := [] }
  | a :: rest => (matchAt r index { before, rest := a :: rest }).or (searchFrom r (index + 1) (some a) rest)

def search (r : Regex α) (line : List α) : Option (Found α) := searchFrom r 0 none line

/-- The matches in what follows a place, each where the one before it ends; `skip` letters belong to that one. -/
def searchAllFrom (r : Regex α) (index : Nat) (before : Option α) : Nat → List α → List (Found α)
  | _, [] => []
  | skip + 1, a :: rest => searchAllFrom r (index + 1) (some a) skip rest
  | 0, a :: rest =>
    match matchAt r index { before, rest := a :: rest } with
    | some found => found :: searchAllFrom r (index + 1) (some a) (found.text.length - 1) rest
    | none => searchAllFrom r (index + 1) (some a) 0 rest

/-- The successive matches that are not empty. -/
def searchAll (r : Regex α) (line : List α) : List (Found α) := searchAllFrom r 0 none 0 line

/-! ### A run goes on -/

theorem mem_repeats_succ {greedy : Bool} {body : Cursor α → List (Cursor α)} {rounds : Nat} {c d : Cursor α}
    (h : d ∈ repeats greedy body (rounds + 1) c) : d = c ∨ ∃ next ∈ body c, d ∈ repeats greedy body rounds next := by
  unfold repeats at h
  cases greedy <;> simp only [Bool.false_eq_true, if_false, if_true, List.mem_append, List.mem_cons,
    List.mem_flatMap, List.mem_filter, List.not_mem_nil, or_false] at h
  · rcases h with rfl | ⟨next, ⟨hnext, -⟩, hd⟩
    · exact .inl rfl
    · exact .inr ⟨next, hnext, hd⟩
  · rcases h with ⟨next, ⟨hnext, -⟩, hd⟩ | rfl
    · exact .inr ⟨next, hnext, hd⟩
    · exact .inl rfl

theorem repeats_suffix {body : Cursor α → List (Cursor α)} (hbody : ∀ c, ∀ d ∈ body c, d.rest <:+ c.rest)
    (greedy : Bool) (rounds : Nat) : ∀ c, ∀ d ∈ repeats greedy body rounds c, d.rest <:+ c.rest := by
  induction rounds with
  | zero =>
    intro c d hd
    obtain rfl := List.mem_singleton.1 hd
    exact List.suffix_rfl
  | succ rounds ih =>
    intro c d hd
    rcases mem_repeats_succ hd with rfl | ⟨next, hnext, hd⟩
    · exact List.suffix_rfl
    · exact (ih next d hd).trans (hbody c next hnext)

/-- A run only leaves letters behind. -/
theorem run_suffix (r : Regex α) : ∀ c, ∀ d ∈ run r c, d.rest <:+ c.rest := by
  induction r with
  | empty =>
    intro c d hd
    obtain rfl := List.mem_singleton.1 hd
    exact List.suffix_rfl
  | letter accepts =>
    intro c d hd
    unfold run at hd
    split at hd
    · rename_i a rest hrest
      split_ifs at hd
      · obtain rfl := List.mem_singleton.1 hd
        rw [hrest]
        exact List.suffix_cons a rest
      · cases hd
    · cases hd
  | seq first second ihfirst ihsecond =>
    intro c d hd
    obtain ⟨next, hnext, hd⟩ := List.mem_flatMap.1 hd
    exact (ihsecond next d hd).trans (ihfirst c next hnext)
  | either left right ihleft ihright =>
    intro c d hd
    rcases List.mem_append.1 hd with hd | hd
    · exact ihleft c d hd
    · exact ihright c d hd
  | many greedy body ih =>
    intro c d hd
    exact repeats_suffix ih greedy _ c d hd
  | group number body ih =>
    intro c d hd
    obtain ⟨next, hnext, rfl⟩ := List.mem_map.1 hd
    exact ih c next hnext
  | ahead body ih =>
    intro c d hd
    obtain ⟨next, -, rfl⟩ := List.mem_map.1 hd
    exact List.suffix_rfl
  | notAhead body ih =>
    intro c d hd
    unfold run at hd
    split_ifs at hd
    · obtain rfl := List.mem_singleton.1 hd
      exact List.suffix_rfl
    · cases hd
  | lineStart | lineEnd | boundary isWord =>
    intro c d hd
    unfold run at hd
    split_ifs at hd
    · obtain rfl := List.mem_singleton.1 hd
      exact List.suffix_rfl
    · cases hd

/-! ### What a pattern cannot do without -/

/-- Every match consumes a letter of the kind. -/
inductive Needs (kind : α → Prop) : Regex α → Prop
  | letter {accepts : α → Bool} (h : ∀ a, accepts a = true → kind a) : Needs kind (.letter accepts)
  | first {first second : Regex α} (h : Needs kind first) : Needs kind (.seq first second)
  | second {first second : Regex α} (h : Needs kind second) : Needs kind (.seq first second)
  | either {left right : Regex α} (hleft : Needs kind left) (hright : Needs kind right) : Needs kind (.either left right)
  | group {number : Nat} {body : Regex α} (h : Needs kind body) : Needs kind (.group number body)

variable {kind : α → Prop} {r : Regex α}

theorem Needs.sequence {parts : List (Regex α)} (h : ∃ part ∈ parts, Needs kind part) :
    Needs kind (Regex.sequence parts) := by
  induction parts with
  | nil =>
    obtain ⟨part, hmem, -⟩ := h
    cases hmem
  | cons head parts ih =>
    obtain ⟨part, hmem, hpart⟩ := h
    rcases List.mem_cons.1 hmem with rfl | hmem
    · exact .first hpart
    · exact .second (ih ⟨part, hmem, hpart⟩)

theorem Needs.exists_mem (h : Needs kind r) : ∀ c, ∀ d ∈ run r c, ∃ a ∈ c.rest, kind a := by
  induction h with
  | letter haccepts =>
    intro c d hd
    unfold run at hd
    split at hd
    · rename_i a rest hrest
      split_ifs at hd with ha
      · exact ⟨a, by rw [hrest]; exact List.mem_cons_self, haccepts a ha⟩
      · cases hd
    · cases hd
  | first _ ih =>
    intro c d hd
    obtain ⟨next, hnext, -⟩ := List.mem_flatMap.1 hd
    exact ih c next hnext
  | second _ ih =>
    intro c d hd
    obtain ⟨next, hnext, hd⟩ := List.mem_flatMap.1 hd
    obtain ⟨a, ha, hkind⟩ := ih next d hd
    exact ⟨a, (run_suffix _ c next hnext).mem ha, hkind⟩
  | either _ _ ihleft ihright =>
    intro c d hd
    rcases List.mem_append.1 hd with hd | hd
    · exact ihleft c d hd
    · exact ihright c d hd
  | group _ ih =>
    intro c d hd
    obtain ⟨next, hnext, -⟩ := List.mem_map.1 hd
    exact ih c next hnext

theorem Needs.matchAt_eq_none (h : Needs kind r) (index : Nat) {c : Cursor α} (hfree : ∀ a ∈ c.rest, ¬kind a) :
    matchAt r index c = none := by
  have hrun : run r c = [] := by
    rw [List.eq_nil_iff_forall_not_mem]
    intro d hd
    obtain ⟨a, ha, hkind⟩ := h.exists_mem c d hd
    exact hfree a ha hkind
  simp [matchAt, hrun]

/-- A line without such letters has no match. -/
theorem Needs.search_eq_none (h : Needs kind r) {line : List α} (hfree : ∀ a ∈ line, ¬kind a) :
    search r line = none := by
  have hfrom : ∀ line : List α, (∀ a ∈ line, ¬kind a) → ∀ index before, searchFrom r index before line = none := by
    intro line
    induction line with
    | nil => exact fun hfree index before => h.matchAt_eq_none index hfree
    | cons a line ih =>
      intro hfree index before
      rw [searchFrom, h.matchAt_eq_none index hfree, Option.none_or]
      exact ih (fun b hb => hfree b (List.mem_cons_of_mem a hb)) _ _
  exact hfrom line hfree 0 none

theorem Needs.searchAll_eq_nil (h : Needs kind r) {line : List α} (hfree : ∀ a ∈ line, ¬kind a) :
    searchAll r line = [] := by
  have hfrom : ∀ line : List α, (∀ a ∈ line, ¬kind a) → ∀ index before, searchAllFrom r index before 0 line = [] := by
    intro line
    induction line with
    | nil => exact fun _ _ _ => rfl
    | cons a line ih =>
      intro hfree index before
      rw [searchAllFrom, h.matchAt_eq_none index hfree]
      exact ih (fun b hb => hfree b (List.mem_cons_of_mem a hb)) _ _
  exact hfrom line hfree 0 none

/-! ### What a search of all matches finds -/

/-- The place in a line before which this many letters stand. -/
def cursorAt (line : List α) (index : Nat) : Cursor α :=
  { before := (line.take index).getLast?, rest := line.drop index }

/-- The pattern matches there. -/
def Found.IsMatch (found : Found α) (r : Regex α) (line : List α) : Prop :=
  ∃ d ∈ run r (cursorAt line found.index),
    found.text = (cursorAt line found.index).consumed d ∧ found.groups = d.groups

theorem isMatch_of_matchAt {r : Regex α} {line : List α} {index : Nat} {found : Found α}
    (h : matchAt r index (cursorAt line index) = some found) : found.IsMatch r line := by
  obtain ⟨d, hd, rfl⟩ := Option.map_eq_some_iff.1 h
  exact ⟨d, List.mem_of_head? hd, rfl, rfl⟩

theorem cursorAt_length (before rest : List α) :
    cursorAt (before ++ rest) before.length = { before := before.getLast?, rest } := by
  simp [cursorAt]

theorem isMatch_of_mem_searchAll {r : Regex α} {line : List α} {found : Found α} (h : found ∈ searchAll r line) :
    found.IsMatch r line := by
  have hfrom : ∀ (rest before : List α) (skip : Nat),
      found ∈ searchAllFrom r before.length before.getLast? skip rest → found.IsMatch r (before ++ rest) := by
    intro rest
    induction rest with
    | nil =>
      intro before skip hmem
      cases skip <;> cases hmem
    | cons a rest ih =>
      intro before skip hmem
      have hnext : ∀ skip, found ∈ searchAllFrom r (before.length + 1) (some a) skip rest →
          found.IsMatch r (before ++ a :: rest) := by
        intro skip hmem
        have hrest := ih (before ++ [a]) skip
        rw [List.length_append, List.length_singleton, List.getLast?_concat, List.append_assoc] at hrest
        exact hrest hmem
      cases skip with
      | succ skip => exact hnext skip hmem
      | zero =>
        rw [searchAllFrom] at hmem
        rw [← cursorAt_length] at hmem
        split at hmem
        · rename_i first hfirst
          rcases List.mem_cons.1 hmem with rfl | hmem
          · exact isMatch_of_matchAt hfirst
          · exact hnext _ hmem
        · exact hnext 0 hmem
  exact hfrom line [] 0 h

/-- What was consumed after a first part. -/
theorem consumed_append {c next d : Cursor α} {first : List α} (hfirst : c.rest = first ++ next.rest)
    (hd : d.rest <:+ next.rest) : c.consumed d = first ++ next.consumed d := by
  have hlength : c.rest.length - d.rest.length = first.length + (next.rest.length - d.rest.length) := by
    have hle := hd.length_le
    rw [hfirst, List.length_append]
    omega
  rw [Cursor.consumed, hlength, hfirst, List.take_length_add_append]
  rfl

theorem consumed_prefix (c d : Cursor α) : c.consumed d <+: c.rest := List.take_prefix _ _

/-- The numbers of the groups of a pattern. -/
def groupNumbers : Regex α → List Nat
  | seq first second => groupNumbers first ++ groupNumbers second
  | either left right => groupNumbers left ++ groupNumbers right
  | many _ body => groupNumbers body
  | group number body => number :: groupNumbers body
  | ahead body => groupNumbers body
  | _ => []

/-- A pattern leaves the groups of other numbers. -/
theorem lookup_of_run (r : Regex α) {number : Nat} (h : number ∉ groupNumbers r) :
    ∀ c, ∀ d ∈ run r c, d.groups.lookup number = c.groups.lookup number := by
  induction r with
  | seq first second ihfirst ihsecond =>
    intro c d hd
    rw [groupNumbers, List.mem_append, not_or] at h
    obtain ⟨next, hnext, hd⟩ := List.mem_flatMap.1 hd
    rw [ihsecond h.2 next d hd, ihfirst h.1 c next hnext]
  | either left right ihleft ihright =>
    intro c d hd
    rw [groupNumbers, List.mem_append, not_or] at h
    rcases List.mem_append.1 hd with hd | hd
    · exact ihleft h.1 c d hd
    · exact ihright h.2 c d hd
  | many greedy body ih =>
    have hrounds : ∀ rounds c, ∀ d ∈ repeats greedy (run body) rounds c,
        d.groups.lookup number = c.groups.lookup number := by
      intro rounds
      induction rounds with
      | zero =>
        intro c d hd
        obtain rfl := List.mem_singleton.1 hd
        rfl
      | succ rounds ihrounds =>
        intro c d hd
        rcases mem_repeats_succ hd with rfl | ⟨next, hnext, hd⟩
        · rfl
        · rw [ihrounds next d hd, ih h c next hnext]
    exact fun c => hrounds c.rest.length c
  | group other body ih =>
    intro c d hd
    rw [groupNumbers, List.mem_cons, not_or] at h
    obtain ⟨next, hnext, rfl⟩ := List.mem_map.1 hd
    have hother : (number == other) = false := beq_false_of_ne h.1
    rw [List.lookup_cons, hother]
    exact ih h.2 c next hnext
  | ahead body ih =>
    intro c d hd
    obtain ⟨next, hnext, rfl⟩ := List.mem_map.1 hd
    exact ih h c next (List.mem_of_mem_take hnext)
  | empty =>
    intro c d hd
    obtain rfl := List.mem_singleton.1 hd
    rfl
  | letter accepts =>
    intro c d hd
    unfold run at hd
    split at hd
    · split_ifs at hd
      · obtain rfl := List.mem_singleton.1 hd
        rfl
      · cases hd
    · cases hd
  | notAhead | lineStart | lineEnd | boundary isWord =>
    intro c d hd
    unfold run at hd
    split_ifs at hd
    · obtain rfl := List.mem_singleton.1 hd
      rfl
    · cases hd

end Regex

end Mindwtr.Lib
