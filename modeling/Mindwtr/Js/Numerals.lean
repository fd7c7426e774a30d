import Mindwtr.Js.Runtime

/-!
# Decimal numerals

`digits?` reads back what `toString` and `padStart` write.
-/

namespace Mindwtr.Js

theorem foldl_digits (cs : List Char) (hcs : ∀ c ∈ cs, c.isDigit = true) (init : Nat) :
    cs.foldl (fun (n : Int) c => 10 * n + ((c.toNat : Int) - 48)) (init : Int) = (Nat.ofDigitChars 10 cs init : Nat) := by
  induction cs generalizing init with
  | nil => simp
  | cons c cs ih =>
    have hdigit := hcs c List.mem_cons_self
    have hlow : 48 ≤ c.toNat := by
      simp only [Char.isDigit, Bool.and_eq_true, decide_eq_true_eq, ge_iff_le, UInt32.le_iff_toNat_le] at hdigit
      exact hdigit.1
    have hzero : '0'.toNat = 48 := rfl
    have hstep : 10 * (init : Int) + ((c.toNat : Int) - 48) = ((10 * init + (c.toNat - '0'.toNat) : Nat) : Int) := by
      rw [hzero]
      omega
    rw [List.foldl_cons, hstep, ih (fun d hd => hcs d (List.mem_cons_of_mem c hd)), Nat.ofDigitChars_cons]

theorem digits?_of_digits {cs : List Char} (hne : cs ≠ []) (hcs : ∀ c ∈ cs, c.isDigit = true) :
    digits? cs = some ((Nat.ofDigitChars 10 cs 0 : Nat) : Int) := by
  have hany : cs.any (fun c => !c.isDigit) = false := by simpa using hcs
  have hcond : (decide (cs = []) || cs.any fun c => !c.isDigit) = false := by simp [hne, hany]
  rw [digits?, if_neg (by simpa using hcond)]
  exact congrArg some (foldl_digits cs hcs 0)

/-- A numeral is read back with any number of zeros before it. -/
theorem digits?_zeros_repr (zeros n : Nat) : digits? (List.replicate zeros '0' ++ (toString n).toList) = some (n : Int) := by
  have hlist : (toString n).toList = Nat.toDigits 10 n := Nat.toList_repr
  rw [hlist, digits?_of_digits (by simp) ?_, Nat.ofDigitChars_append]
  · simp
  · intro c hc
    rcases List.mem_append.1 hc with hzero | hdigit
    · rw [List.eq_of_mem_replicate hzero]
      rfl
    · exact Nat.isDigit_of_mem_toDigits (by decide) (by decide) hdigit

theorem toString_natCast (n : Nat) : toString (n : Int) = toString n := rfl

theorem digits?_toString (n : Nat) : digits? (toString (n : Int)).toList = some (n : Int) := by
  have h := digits?_zeros_repr 0 n
  rwa [List.replicate_zero, List.nil_append, ← toString_natCast] at h

/-- A numeral, padded or not, is made of digits and a minus. -/
theorem mem_toString {n : Int} {c : Char} (h : c ∈ (toString n).toList) : c.isDigit = true ∨ c = '-' := by
  cases n with
  | ofNat k =>
    have hlist : (toString (Int.ofNat k)).toList = Nat.toDigits 10 k := Nat.toList_repr
    rw [hlist] at h
    exact .inl (Nat.isDigit_of_mem_toDigits (by decide) (by decide) h)
  | negSucc k =>
    have hneg : (toString (Int.negSucc k)).toList = '-' :: Nat.toDigits 10 (k + 1) := by
      simp [toString, Int.repr, Nat.toList_repr]
    rw [hneg, List.mem_cons] at h
    rcases h with rfl | h
    · exact .inr rfl
    · exact .inl (Nat.isDigit_of_mem_toDigits (by decide) (by decide) h)

theorem mem_padStart {len : Nat} {n : Int} {c : Char} (h : c ∈ (padStart len (toString n)).toList) :
    c.isDigit = true ∨ c = '-' := by
  rw [padStart, String.toList_ofList, List.mem_append] at h
  rcases h with hzero | h
  · rw [List.eq_of_mem_replicate hzero]
    exact .inl rfl
  · exact mem_toString h

theorem padStart_ne_nil {len : Nat} (hlen : 0 < len) (s : String) : (padStart len s).toList ≠ [] := by
  intro hnil
  have hlength := congrArg List.length hnil
  rw [padStart, String.toList_ofList, List.length_append, List.length_replicate, List.length_nil] at hlength
  omega

end Mindwtr.Js
