import Mindwtr.Js.Runtime
import Mindwtr.Js.Numerals

/-!
# JSON texts

`JSON.stringify` tells values apart (`stringify_injective`): where a text ends is known from its first character on, so
two values whose texts begin a longer one are the same value, and what follows is the same (`text_unique`).
-/

namespace Mindwtr.Js

/-- What the texts of numbers are like. -/
class NumberTextLaws [Runtime] : Prop where
  injective (a b : Rat) (h : Runtime.numberToString a = Runtime.numberToString b) : a = b
  first (n : Rat) : ∃ c rest, (Runtime.numberToString n).toList = c :: rest ∧ (c.isDigit = true ∨ c = '-')
  plain (n : Rat) : ∀ c ∈ (Runtime.numberToString n).toList, c ≠ ',' ∧ c ≠ ']' ∧ c ≠ '\x7d'

/-! ### Quoted texts -/

def hexDigitValue (c : Char) : Nat := if c.isDigit then c.toNat - 48 else c.toNat - 87

/-- The character that an escape or a plain character stands for, with what follows. -/
def unescapeChar : List Char → Option (Char × List Char)
  | '\\' :: 'b' :: rest => some (Char.ofNat 8, rest)
  | '\\' :: 't' :: rest => some (Char.ofNat 9, rest)
  | '\\' :: 'n' :: rest => some (Char.ofNat 10, rest)
  | '\\' :: 'f' :: rest => some (Char.ofNat 12, rest)
  | '\\' :: 'r' :: rest => some (Char.ofNat 13, rest)
  | '\\' :: 'u' :: '0' :: '0' :: a :: b :: rest => some (Char.ofNat (16 * hexDigitValue a + hexDigitValue b), rest)
  | '\\' :: c :: rest => some (c, rest)
  | '"' :: _ => none
  | c :: rest => some (c, rest)
  | [] => none

theorem unescapeChar_escapeChar (c : Char) (rest : List Char) :
    unescapeChar (escapeChar c ++ rest) = some (c, rest) := by
  have hback := Char.ofNat_toNat c
  by_cases hcontrol : c.toNat < 32
  · -- the control characters one by one
    generalize c.toNat = n at hback hcontrol
    subst hback
    interval_cases n <;> rfl
  · unfold escapeChar
    by_cases hquoted : c.toNat = 34 ∨ c.toNat = 92
    · rcases hquoted with h | h
      · rw [h] at hback
        subst hback
        rfl
      · rw [h] at hback
        subst hback
        rfl
    · have hplain : c ≠ '"' ∧ c ≠ '\\' := by
        constructor
        · rintro rfl
          exact hquoted (.inl rfl)
        · rintro rfl
          exact hquoted (.inr rfl)
      have h8 : c.toNat ≠ 8 := by omega
      have h9 : c.toNat ≠ 9 := by omega
      have h10 : c.toNat ≠ 10 := by omega
      have h12 : c.toNat ≠ 12 := by omega
      have h13 : c.toNat ≠ 13 := by omega
      simp only [hquoted, h8, h9, h10, h12, h13, hcontrol, if_false, List.singleton_append]
      unfold unescapeChar
      split <;> simp_all

def quoted (s : String) : List Char := '"' :: s.toList.flatMap escapeChar ++ ['"']

theorem escaped_unique {l l' : List Char} {s t : List Char}
    (h : l.flatMap escapeChar ++ '"' :: s = l'.flatMap escapeChar ++ '"' :: t) : l = l' ∧ s = t := by
  induction l generalizing l' with
  | nil =>
    cases l' with
    | nil => exact ⟨rfl, (List.cons.inj h).2⟩
    | cons c l' =>
      have hread := congrArg unescapeChar h
      rw [List.flatMap_cons, List.append_assoc, unescapeChar_escapeChar] at hread
      cases hread
  | cons c l ih =>
    have hread := congrArg unescapeChar h
    rw [List.flatMap_cons, List.append_assoc, unescapeChar_escapeChar] at hread
    cases l' with
    | nil => cases hread
    | cons d l' =>
      rw [List.flatMap_cons, List.append_assoc, unescapeChar_escapeChar] at hread
      obtain ⟨rfl, hrest⟩ := Prod.mk.inj (Option.some.inj hread)
      obtain ⟨rfl, rfl⟩ := ih hrest
      exact ⟨rfl, rfl⟩

theorem quoted_unique {a b : String} {s t : List Char} (h : quoted a ++ s = quoted b ++ t) : a = b ∧ s = t := by
  simp only [quoted, List.cons_append, List.append_assoc, List.cons.injEq, true_and] at h
  obtain ⟨hlist, hrest⟩ := escaped_unique h
  exact ⟨String.toList_injective hlist, hrest⟩

/-! ### Texts of values -/

section
variable [Runtime]

def textOf (v : Json) : List Char := (stringify v).toList

def itemsTextOf (items : List Json) : List Char := (stringifyItems items).toList

def entriesTextOf (entries : List (String × Json)) : List Char := (stringifyEntries entries).toList

/-- What follows the first item of a list. -/
def moreItems : List Json → List Char
  | [] => []
  | v :: items => ',' :: itemsTextOf (v :: items)

def moreEntries : List (String × Json) → List Char
  | [] => []
  | e :: entries => ',' :: entriesTextOf (e :: entries)

theorem textOf_null : textOf .null = 'n' :: "ull".toList := by
  rw [textOf, stringify]
  decide

theorem textOf_bool (b : Bool) : textOf (.bool b) = if b then 't' :: "rue".toList else 'f' :: "alse".toList := by
  rw [textOf, stringify]
  cases b <;> decide

theorem textOf_arr (items : List Json) : textOf (.arr items) = '[' :: (itemsTextOf items ++ [']']) := by
  simp [textOf, stringify, itemsTextOf]

theorem textOf_obj (entries : List (String × Json)) :
    textOf (.obj entries) = '\x7b' :: (entriesTextOf entries ++ ['\x7d']) := by
  simp [textOf, stringify, entriesTextOf]

theorem textOf_str (s : String) : textOf (.str s) = quoted s := by
  rw [textOf, stringify, quote, String.toList_ofList]
  rfl

theorem itemsTextOf_cons (v : Json) (items : List Json) : itemsTextOf (v :: items) = textOf v ++ moreItems items := by
  cases items with
  | nil => simp [itemsTextOf, stringifyItems, textOf, moreItems]
  | cons w items => simp [itemsTextOf, stringifyItems, textOf, moreItems]

theorem entriesTextOf_cons (k : String) (v : Json) (entries : List (String × Json)) :
    entriesTextOf ((k, v) :: entries) = quoted k ++ ':' :: (textOf v ++ moreEntries entries) := by
  cases entries with
  | nil => simp [entriesTextOf, stringifyEntries, textOf, moreEntries, quote, quoted]
  | cons e entries => simp [entriesTextOf, stringifyEntries, textOf, moreEntries, quote, quoted]

/-- The kind of value that begins with a character. -/
def opening (c : Char) : Nat :=
  if c = 'n' then 0
  else if c = 't' ∨ c = 'f' then 1
  else if c = '"' then 3
  else if c = '[' then 4
  else if c = '\x7b' then 5
  else 2

def kindOf : Json → Nat
  | .null => 0
  | .bool _ => 1
  | .num _ => 2
  | .str _ => 3
  | .arr _ => 4
  | .obj _ => 5

/-- A value in a longer text is followed by nothing, a comma or a bracket. -/
def Ends (rest : List Char) : Prop := ∀ c ∈ rest.head?, c = ',' ∨ c = ']' ∨ c = '\x7d'

theorem ends_moreItems (items : List Json) (rest : List Char) : Ends (moreItems items ++ ']' :: rest) := by
  cases items <;> simp [moreItems, Ends]

theorem ends_moreEntries (entries : List (String × Json)) (rest : List Char) :
    Ends (moreEntries entries ++ '\x7d' :: rest) := by
  cases entries <;> simp [moreEntries, Ends]

variable [NumberTextLaws]

theorem textOf_opening (v : Json) :
    ∃ c rest, textOf v = c :: rest ∧ opening c = kindOf v ∧ c ≠ ',' ∧ c ≠ ']' ∧ c ≠ '\x7d' := by
  cases v with
  | null => exact ⟨'n', _, textOf_null, rfl, by decide⟩
  | bool b =>
    cases b with
    | false => exact ⟨'f', _, textOf_bool false, rfl, by decide⟩
    | true => exact ⟨'t', _, textOf_bool true, rfl, by decide⟩
  | num n =>
    obtain ⟨c, rest, htext, hfirst⟩ := NumberTextLaws.first n
    refine ⟨c, rest, htext, ?_, NumberTextLaws.plain n c (by rw [htext]; exact List.mem_cons_self)⟩
    have hnot : c ≠ 'n' ∧ c ≠ 't' ∧ c ≠ 'f' ∧ c ≠ '"' ∧ c ≠ '[' ∧ c ≠ '\x7b' := by
      refine ⟨?_, ?_, ?_, ?_, ?_, ?_⟩ <;> (rintro rfl; revert hfirst; decide)
    simp [opening, kindOf, hnot]
  | str s => exact ⟨'"', _, textOf_str s, rfl, by decide⟩
  | arr items => exact ⟨'[', _, textOf_arr items, rfl, by decide⟩
  | obj entries => exact ⟨'\x7b', _, textOf_obj entries, rfl, by decide⟩

theorem kindOf_eq {v w : Json} {s t : List Char} (h : textOf v ++ s = textOf w ++ t) : kindOf v = kindOf w := by
  obtain ⟨c, rest, hv, hkind, -⟩ := textOf_opening v
  obtain ⟨d, rest', hw, hkind', -⟩ := textOf_opening w
  rw [hv, hw] at h
  rw [← hkind, ← hkind', (List.cons.inj h).1]

theorem numberText_unique {a b : Rat} {s t : List Char} (hs : Ends s) (ht : Ends t)
    (h : textOf (.num a) ++ s = textOf (.num b) ++ t) : a = b ∧ s = t := by
  have hread : ∀ (n : Rat) (rest : List Char), Ends rest →
      (textOf (.num n) ++ rest).takeWhile (fun c => c != ',' && c != ']' && c != '\x7d') = textOf (.num n) := by
    intro n rest hrest
    rw [List.takeWhile_append_of_pos]
    · have hnone : rest.takeWhile (fun c => c != ',' && c != ']' && c != '\x7d') = [] := by
        cases rest with
        | nil => rfl
        | cons c rest =>
          have hc := hrest c rfl
          rw [List.takeWhile_cons_of_neg]
          rcases hc with rfl | rfl | rfl <;> decide
      rw [hnone, List.append_nil]
    · intro c hc
      obtain ⟨h1, h2, h3⟩ := NumberTextLaws.plain n c hc
      simp [h1, h2, h3]
  have htext : textOf (.num a) = textOf (.num b) := by rw [← hread a s hs, h, hread b t ht]
  rw [htext] at h
  exact ⟨NumberTextLaws.injective a b (String.toList_injective htext), List.append_cancel_left h⟩

mutual

theorem text_unique (v w : Json) {s t : List Char} (hs : Ends s) (ht : Ends t)
    (h : textOf v ++ s = textOf w ++ t) : v = w ∧ s = t := by
  have hkind := kindOf_eq h
  cases v with
  | null =>
    cases w with
    | null => exact ⟨rfl, List.append_cancel_left h⟩
    | _ => cases hkind
  | bool a =>
    cases w with
    | bool b =>
      have hfirst := congrArg List.head? h
      rw [textOf_bool, textOf_bool] at hfirst
      obtain rfl : a = b := by
        cases a <;> cases b <;> first | rfl | cases hfirst
      exact ⟨rfl, List.append_cancel_left h⟩
    | _ => cases hkind
  | num a =>
    cases w with
    | num b =>
      obtain ⟨rfl, hrest⟩ := numberText_unique hs ht h
      exact ⟨rfl, hrest⟩
    | _ => cases hkind
  | str a =>
    cases w with
    | str b =>
      rw [textOf_str, textOf_str] at h
      obtain ⟨rfl, hrest⟩ := quoted_unique h
      exact ⟨rfl, hrest⟩
    | _ => cases hkind
  | arr items =>
    cases w with
    | arr items' =>
      rw [textOf_arr, textOf_arr, List.cons_append, List.cons_append, List.append_assoc, List.append_assoc] at h
      obtain ⟨rfl, hrest⟩ := items_unique items items' (List.cons.inj h).2
      exact ⟨rfl, hrest⟩
    | _ => cases hkind
  | obj entries =>
    cases w with
    | obj entries' =>
      rw [textOf_obj, textOf_obj, List.cons_append, List.cons_append, List.append_assoc, List.append_assoc] at h
      obtain ⟨rfl, hrest⟩ := entries_unique entries entries' (List.cons.inj h).2
      exact ⟨rfl, hrest⟩
    | _ => cases hkind

theorem items_unique (items items' : List Json) {s t : List Char}
    (h : itemsTextOf items ++ ']' :: s = itemsTextOf items' ++ ']' :: t) : items = items' ∧ s = t := by
  cases items with
  | nil =>
    cases items' with
    | nil => exact ⟨rfl, (List.cons.inj h).2⟩
    | cons w items' =>
      obtain ⟨c, rest, hw, -, -, hne, -⟩ := textOf_opening w
      rw [itemsTextOf_cons, hw] at h
      exact absurd (List.cons.inj h).1.symm hne
  | cons v items =>
    cases items' with
    | nil =>
      obtain ⟨c, rest, hv, -, -, hne, -⟩ := textOf_opening v
      rw [itemsTextOf_cons, hv] at h
      exact absurd (List.cons.inj h).1 hne
    | cons w items' =>
      rw [itemsTextOf_cons, itemsTextOf_cons, List.append_assoc, List.append_assoc] at h
      obtain ⟨rfl, hmore⟩ := text_unique v w (ends_moreItems items s) (ends_moreItems items' t) h
      cases items with
      | nil =>
        cases items' with
        | nil => exact ⟨rfl, (List.cons.inj hmore).2⟩
        | cons w' items' => exact absurd (List.cons.inj hmore).1 (by decide)
      | cons v' items =>
        cases items' with
        | nil => exact absurd (List.cons.inj hmore).1 (by decide)
        | cons w' items' =>
          obtain ⟨heq, hrest⟩ := items_unique (v' :: items) (w' :: items') (List.cons.inj hmore).2
          exact ⟨congrArg _ heq, hrest⟩

theorem entries_unique (entries entries' : List (String × Json)) {s t : List Char}
    (h : entriesTextOf entries ++ '\x7d' :: s = entriesTextOf entries' ++ '\x7d' :: t) : entries = entries' ∧ s = t := by
  cases entries with
  | nil =>
    cases entries' with
    | nil => exact ⟨rfl, (List.cons.inj h).2⟩
    | cons e entries' =>
      obtain ⟨k, w⟩ := e
      rw [entriesTextOf_cons] at h
      exact absurd (List.cons.inj h).1 (by decide)
  | cons e entries =>
    obtain ⟨k, v⟩ := e
    cases entries' with
    | nil =>
      rw [entriesTextOf_cons] at h
      exact absurd (List.cons.inj h).1 (by decide)
    | cons e' entries' =>
      obtain ⟨k', w⟩ := e'
      rw [entriesTextOf_cons, entriesTextOf_cons, List.append_assoc, List.append_assoc] at h
      obtain ⟨rfl, hvalue⟩ := quoted_unique h
      rw [List.cons_append, List.cons_append, List.append_assoc, List.append_assoc] at hvalue
      obtain ⟨rfl, hmore⟩ :=
        text_unique v w (ends_moreEntries entries s) (ends_moreEntries entries' t) (List.cons.inj hvalue).2
      cases entries with
      | nil =>
        cases entries' with
        | nil => exact ⟨rfl, (List.cons.inj hmore).2⟩
        | cons d entries' => exact absurd (List.cons.inj hmore).1 (by decide)
      | cons d entries =>
        cases entries' with
        | nil => exact absurd (List.cons.inj hmore).1 (by decide)
        | cons d' entries' =>
          obtain ⟨heq, hrest⟩ := entries_unique (d :: entries) (d' :: entries') (List.cons.inj hmore).2
          exact ⟨congrArg _ heq, hrest⟩

end

theorem stringify_injective {v w : Json} (h : stringify v = stringify w) : v = w := by
  have hnil : Ends [] := fun c hc => by cases hc
  exact (text_unique v w hnil hnil (congrArg (fun s => s.toList ++ []) h)).1

end

/-! ### The numbers of `isoRuntime` -/

theorem natText_digits (n : Nat) : (toString n).toList ≠ [] ∧ ∀ c ∈ (toString n).toList, c.isDigit = true := by
  have hlist : (toString n).toList = Nat.toDigits 10 n := Nat.toList_repr
  rw [hlist]
  exact ⟨by simp, fun c hc => Nat.isDigit_of_mem_toDigits (by decide) (by decide) hc⟩

theorem natText_injective {m n : Nat} (h : (toString m).toList = (toString n).toList) : m = n := by
  have hm := digits?_toString m
  rw [toString_natCast, h, ← toString_natCast, digits?_toString] at hm
  have := Option.some.inj hm
  omega

theorem intText (k : Int) :
    (toString k).toList = if 0 ≤ k then (toString k.natAbs).toList else '-' :: (toString k.natAbs).toList := by
  cases k with
  | ofNat n => rfl
  | negSucc n =>
    have htext : toString (Int.negSucc n) = "-" ++ toString (n + 1) := rfl
    rw [if_neg (by omega), htext, String.toList_append]
    rfl

theorem intText_first (k : Int) : ∃ c rest, (toString k).toList = c :: rest ∧ (c.isDigit = true ∨ c = '-') := by
  obtain ⟨hne, hdigits⟩ := natText_digits k.natAbs
  rw [intText]
  split_ifs
  · obtain ⟨c, rest, hcons⟩ := List.exists_cons_of_ne_nil hne
    exact ⟨c, rest, hcons, .inl (hdigits c (by rw [hcons]; exact List.mem_cons_self))⟩
  · exact ⟨'-', _, rfl, .inr rfl⟩

theorem intText_injective {j k : Int} (h : (toString j).toList = (toString k).toList) : j = k := by
  rw [intText, intText] at h
  have hminus : ∀ n : Nat, '-' ∉ (toString n).toList := by
    intro n hmem
    exact absurd ((natText_digits n).2 _ hmem) (by decide)
  split_ifs at h with hj hk hk
  · have habs := natText_injective h
    omega
  · exact absurd (by rw [h]; exact List.mem_cons_self) (hminus j.natAbs)
  · exact absurd (by rw [← h]; exact List.mem_cons_self) (hminus k.natAbs)
  · have habs := natText_injective (List.cons.inj h).2
    omega

theorem numberTextLaws_isoRuntime : @NumberTextLaws isoRuntime := by
  have hslash : ∀ k : Int, '/' ∉ (toString k).toList := by
    intro k hmem
    exact absurd (mem_toString hmem) (by decide)
  have htext : ∀ n : Rat, (@Runtime.numberToString isoRuntime n).toList =
      if n.den = 1 then (toString n.num).toList else (toString n.num).toList ++ '/' :: (toString n.den).toList := by
    intro n
    change (if n.den = 1 then toString n.num else toString n.num ++ "/" ++ toString n.den).toList = _
    split_ifs
    · rfl
    · rw [String.toList_append, String.toList_append, List.append_assoc]
      rfl
  refine @NumberTextLaws.mk isoRuntime ?_ ?_ ?_
  · intro a b h
    have hlist := congrArg String.toList h
    rw [htext, htext] at hlist
    have hnum : a.num = b.num ∧ a.den = b.den := by
      split_ifs at hlist with ha hb hb
      · exact ⟨intText_injective hlist, by omega⟩
      · exact absurd (by rw [hlist]; simp) (hslash a.num)
      · exact absurd (by rw [← hlist]; simp) (hslash b.num)
      · have hsplit := congrArg (fun l => (l.takeWhile (· != '/'), (l.dropWhile (· != '/')).tail)) hlist
        have hparts : ∀ (k : Int) (rest : List Char),
            (((toString k).toList ++ '/' :: rest).takeWhile (· != '/'),
              (((toString k).toList ++ '/' :: rest).dropWhile (· != '/')).tail) = ((toString k).toList, rest) := by
          intro k rest
          have hall : ∀ c ∈ (toString k).toList, (c != '/') = true := by
            intro c hc
            rw [bne_iff_ne]
            rintro rfl
            exact hslash k hc
          rw [List.takeWhile_append_of_pos hall, List.dropWhile_append_of_pos hall]
          simp
        simp only [hparts, Prod.mk.injEq] at hsplit
        exact ⟨intText_injective hsplit.1, natText_injective hsplit.2⟩
    exact Rat.ext hnum.1 hnum.2
  · intro n
    obtain ⟨c, rest, hcons, hfirst⟩ := intText_first n.num
    rw [htext, hcons]
    split_ifs
    · exact ⟨c, rest, rfl, hfirst⟩
    · exact ⟨c, _, rfl, hfirst⟩
  · intro n c hc
    have hchars : c.isDigit = true ∨ c = '-' ∨ c = '/' := by
      rw [htext] at hc
      split_ifs at hc
      · exact (mem_toString hc).imp id .inl
      · rcases List.mem_append.1 hc with hnum | hden
        · exact (mem_toString hnum).imp id .inl
        · rcases List.mem_cons.1 hden with rfl | hden
          · exact .inr (.inr rfl)
          · exact .inl ((natText_digits _).2 c hden)
    refine ⟨?_, ?_, ?_⟩ <;> (rintro rfl; revert hchars; decide)

end Mindwtr.Js
