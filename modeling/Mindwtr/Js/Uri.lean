import Mindwtr.Js.Numerals

/-!
# Escaped URIs

`encodeURIComponent` writes the bytes of the UTF-8 form; two texts never have the same escaped form.
-/

namespace Mindwtr.Js

/-- `A-Z a-z 0-9 - _ . ! ~ * ' ( )`. -/
def isUnescaped (b : UInt8) : Bool :=
  let mark := Char.ofNat b.toNat
  mark.isAlphanum || "-_.!~*'()".toList.contains mark

def hexDigits : List Char := "0123456789ABCDEF".toList

def escapeByte (b : UInt8) : List Char :=
  if isUnescaped b then [Char.ofNat b.toNat]
  else ['%', hexDigits.getD (b.toNat / 16) '0', hexDigits.getD (b.toNat % 16) '0']

/-- `encodeURIComponent`: the bytes of the UTF-8 form. -/
def percentEncode (s : String) : String := String.ofList (s.toByteArray.data.toList.flatMap escapeByte)

example : percentEncode "a:ü" = "a%3A%C3%BC" := by decide +kernel

/-- The byte at the head of an escaped text. -/
def readEscape : List Char → Nat
  | '%' :: high :: low :: _ => 16 * hexDigits.idxOf high + hexDigits.idxOf low
  | c :: _ => c.toNat
  | [] => 0

theorem readEscape_escapeByte (b : UInt8) (rest : List Char) : readEscape (escapeByte b ++ rest) = b.toNat := by
  have hplain : ∀ b, isUnescaped b = true → Char.ofNat b.toNat ≠ '%' ∧ (Char.ofNat b.toNat).toNat = b.toNat := by
    decide +kernel
  have hescaped : ∀ b : UInt8, 16 * hexDigits.idxOf (hexDigits.getD (b.toNat / 16) '0') +
      hexDigits.idxOf (hexDigits.getD (b.toNat % 16) '0') = b.toNat := by
    decide +kernel
  unfold escapeByte
  split
  · next h =>
    obtain ⟨hpercent, hnat⟩ := hplain b h
    rw [List.singleton_append, readEscape, hnat]
    intro _ _ _ hhead
    exact absurd hhead hpercent
  · exact hescaped b

theorem escapeBytes_injective {bs cs : List UInt8} (h : bs.flatMap escapeByte = cs.flatMap escapeByte) : bs = cs := by
  have hne (b : UInt8) : escapeByte b ≠ [] := by
    unfold escapeByte
    split <;> exact List.cons_ne_nil _ _
  induction bs generalizing cs with
  | nil =>
    cases cs with
    | nil => rfl
    | cons c cs => simp [hne] at h
  | cons b bs ih =>
    cases cs with
    | nil => simp [hne] at h
    | cons c cs =>
      rw [List.flatMap_cons, List.flatMap_cons] at h
      have hhead := congrArg readEscape h
      rw [readEscape_escapeByte, readEscape_escapeByte] at hhead
      have hbyte : b = c := UInt8.toNat_inj.1 hhead
      subst hbyte
      rw [ih (List.append_cancel_left h)]

theorem percentEncode_injective (s t : String) (h : percentEncode s = percentEncode t) : s = t := by
  have hbytes := escapeBytes_injective (String.ofList_injective h)
  exact String.toByteArray_inj.1 (ByteArray.ext (Array.toList_inj.1 hbytes))

theorem percentEncode_colon (s : String) : ':' ∉ (percentEncode s).toList := by
  have hbyte : ∀ b, ':' ∉ escapeByte b := by decide +kernel
  rw [percentEncode, String.toList_ofList, List.mem_flatMap]
  rintro ⟨b, -, hmem⟩
  exact hbyte b hmem

/-- An escaped text is a word. -/
theorem percentEncode_plain (s : String) : ∀ c ∈ (percentEncode s).toList, isTrimmed c = false ∧ c ≠ ';' := by
  have hbyte : ∀ b, ((escapeByte b).all fun c => !isTrimmed c && c != ';') = true := by decide +kernel
  intro c hc
  rw [percentEncode, String.toList_ofList, List.mem_flatMap] at hc
  obtain ⟨b, -, hmem⟩ := hc
  simpa using List.all_eq_true.1 (hbyte b) c hmem

/-- `isoRuntime` with escaped URIs. -/
@[reducible] def escapingRuntime : Runtime := { isoRuntime with encodeURIComponent := percentEncode }

end Mindwtr.Js
