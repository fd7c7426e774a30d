import Mindwtr.Js.Json

/-!
# Strings and property names

`<` on JavaScript strings compares UTF-16 code units, which is not the order of code points: a
character outside the basic plane is written with two surrogates and sorts below `U+E000`. The
encoding is injective (`utf16_injective`), so the order is total (`jsLt_trichotomy`). `trim` strips
the white space and the line terminators of the language's own list.
-/

namespace Mindwtr.Js

/-! ### The order of strings -/

/-- The code units of one character. -/
def codeUnits (c : Char) : List Nat :=
  if c.toNat < 0x10000 then [c.toNat]
  else [0xD800 + (c.toNat - 0x10000) / 0x400, 0xDC00 + (c.toNat - 0x10000) % 0x400]

def utf16 (s : String) : List Nat := s.toList.flatMap codeUnits

def jsLt (a b : String) : Bool := decide (utf16 a < utf16 b)

/-- A character is never a lone surrogate. -/
theorem char_not_surrogate (c : Char) : c.toNat < 0xD800 ∨ 0xDFFF < c.toNat ∧ c.toNat < 0x110000 :=
  c.valid

theorem codeUnits_append_inj (c d : Char) (s t : List Nat)
    (h : codeUnits c ++ s = codeUnits d ++ t) : c = d ∧ s = t := by
  have hc := char_not_surrogate c
  have hd := char_not_surrogate d
  suffices hval : c.toNat = d.toNat ∧ s = t from ⟨Char.toNat_inj.1 hval.1, hval.2⟩
  unfold codeUnits at h
  split at h <;> split at h <;> simp only [List.cons_append, List.nil_append, List.cons.injEq] at h
  · exact h
  · -- a basic character against a high surrogate
    omega
  · omega
  · obtain ⟨hhi, hlo, hst⟩ := h
    exact ⟨by omega, hst⟩

theorem flatMap_codeUnits_injective : ∀ a b : List Char,
    a.flatMap codeUnits = b.flatMap codeUnits → a = b := by
  have hne : ∀ (c : Char) (s : List Nat), codeUnits c ++ s ≠ [] := by
    intro c s; unfold codeUnits; split <;> simp
  intro a
  induction a with
  | nil =>
    rintro (_ | ⟨d, b⟩) h
    · rfl
    · exact absurd h.symm (hne d _)
  | cons c a ih =>
    rintro (_ | ⟨d, b⟩) h
    · exact absurd h (hne c _)
    · obtain ⟨rfl, hab⟩ := codeUnits_append_inj c d _ _ h
      rw [ih b hab]

theorem utf16_injective {a b : String} (h : utf16 a = utf16 b) : a = b :=
  String.toList_inj.1 (flatMap_codeUnits_injective _ _ h)

theorem jsLt_irrefl (a : String) : jsLt a a = false := by simp [jsLt]

theorem jsLt_asymm {a b : String} (h : jsLt a b = true) : jsLt b a = false := by
  simp only [jsLt, decide_eq_true_eq, decide_eq_false_iff_not] at h ⊢
  exact lt_asymm h

theorem jsLt_trans {a b c : String} (hab : jsLt a b = true) (hbc : jsLt b c = true) :
    jsLt a c = true := by
  simp only [jsLt, decide_eq_true_eq] at hab hbc ⊢
  exact lt_trans hab hbc

theorem jsLt_trichotomy (a b : String) : jsLt a b = true ∨ a = b ∨ jsLt b a = true := by
  rcases lt_trichotomy (utf16 a) (utf16 b) with h | h | h
  · exact .inl (by simpa [jsLt] using h)
  · exact .inr (.inl (utf16_injective h))
  · exact .inr (.inr (by simpa [jsLt] using h))

/-- Of two different strings exactly one is the greater. -/
theorem jsLt_of_ne {a b : String} (hne : a ≠ b) : jsLt b a = !jsLt a b := by
  rcases jsLt_trichotomy a b with h | h | h
  · rw [h, jsLt_asymm h]; rfl
  · exact absurd h hne
  · rw [h, jsLt_asymm h]; rfl

/-! ### White space -/

/-- The code points `String.prototype.trim` strips. -/
def isTrimmed (c : Char) : Bool :=
  let n := c.toNat
  (0x09 ≤ n && n ≤ 0x0D) || n == 0x20 || n == 0xA0 || n == 0x1680 || (0x2000 ≤ n && n ≤ 0x200A) ||
    n == 0x2028 || n == 0x2029 || n == 0x202F || n == 0x205F || n == 0x3000 || n == 0xFEFF

def trim (s : String) : String := String.ofList ((s.toList.dropWhile isTrimmed).rdropWhile isTrimmed)

/-- `s.trim().length === 0`. -/
def isBlank (s : String) : Bool := trim s == ""

theorem trim_trim (s : String) : trim (trim s) = trim s := by
  have hleft : ((s.toList.dropWhile isTrimmed).rdropWhile isTrimmed).dropWhile isTrimmed =
      (s.toList.dropWhile isTrimmed).rdropWhile isTrimmed := by
    rw [List.dropWhile_eq_self_iff]
    intro hpos
    have hprefix := List.rdropWhile_prefix isTrimmed (l := s.toList.dropWhile isTrimmed)
    have hlength := hprefix.length_le
    rw [List.IsPrefix.getElem hprefix hpos]
    exact List.dropWhile_get_zero_not (p := isTrimmed) s.toList (by omega)
  simp only [trim, String.toList_ofList]
  rw [hleft, List.rdropWhile_idempotent]

theorem isBlank_trim (s : String) : isBlank (trim s) = isBlank s := by
  rw [isBlank, isBlank, trim_trim]

theorem trim_ne_of_isBlank {s : String} (h : isBlank s = false) : isBlank (trim s) = false := by
  rw [isBlank_trim]
  exact h

/-! ### Splitting -/

/-- The parts of a text are free of the separator. -/
theorem mem_splitOnP {p : Char → Bool} {path segment : List Char} (h : segment ∈ path.splitOnP p) :
    ∀ c ∈ segment, p c = false ∧ c ∈ path := by
  induction path generalizing segment with
  | nil =>
    rw [List.splitOnP_nil, List.mem_singleton] at h
    simp [h]
  | cons c path ih =>
    rw [List.splitOnP_cons_eq_if_modifyHead] at h
    split at h
    · rcases List.mem_cons.1 h with rfl | h
      · simp
      · intro d hd
        exact ⟨(ih h d hd).1, List.mem_cons_of_mem c (ih h d hd).2⟩
    · rename_i hc
      obtain ⟨head, tail, hsplit⟩ := List.exists_cons_of_ne_nil (List.splitOnP_ne_nil p path)
      rw [hsplit] at ih h
      rcases List.mem_cons.1 h with rfl | h
      · intro d hd
        rcases List.mem_cons.1 hd with rfl | hd
        · exact ⟨by simpa using hc, by simp⟩
        · have hmem : head ∈ head :: tail := by simp
          have hhead := ih hmem d hd
          exact ⟨hhead.1, List.mem_cons_of_mem c hhead.2⟩
      · intro d hd
        have htail := ih (List.mem_cons_of_mem head h) d hd
        exact ⟨htail.1, List.mem_cons_of_mem c htail.2⟩

/-! ### Property names -/

/-- The value of a canonical numeral, which is what an array index looks like as a property name. -/
def arrayIndex? (key : String) : Option Nat :=
  let digits := key.toList
  if digits = [] || digits.any (fun c => !c.isDigit) then none
  else
    let value := digits.foldl (fun n c => 10 * n + (c.toNat - 48)) 0
    if toString value = key && value < 2 ^ 32 - 1 then some value else none

def sortKeys {α : Type} (entries : List (String × α)) : List (String × α) :=
  entries.insertionSort fun a b => !jsLt b.1 a.1

/-- The order in which an object built from these assignments enumerates its properties: array
indices first and ascending, then the names in the order of their first assignment. -/
def propertyOrder {α : Type} (entries : List (String × α)) : List (String × α) :=
  (entries.filter fun e => (arrayIndex? e.1).isSome).insertionSort
      (fun a b => (arrayIndex? a.1).getD 0 ≤ (arrayIndex? b.1).getD 0)
    ++ entries.filter fun e => (arrayIndex? e.1).isNone

end Mindwtr.Js
