import Mindwtr.Desktop.Arbitration
import Mindwtr.Sync.Signature

/-!
# One signature in two languages

The native store writes its own signature of a record. On ASCII text the two have the same text: names sort alike,
strings are trimmed alike, and what one leaves out the other does (`entityTieBreakJson_eq`), as long as both
languages write the numbers alike and no name is one that a JavaScript object moves or swallows.
-/

namespace Mindwtr.Desktop

open Mindwtr.Js Mindwtr.Sync

/-! ### ASCII text -/

def isAscii (s : String) : Bool := s.toList.all fun c => decide (c.toNat < 128)

theorem isAscii_iff {s : String} : isAscii s = true ↔ ∀ c ∈ s.toList, c.toNat < 128 := by
  simp [isAscii]

theorem isAscii_append (s t : String) : isAscii (s ++ t) = (isAscii s && isAscii t) := by
  simp [isAscii]

theorem utf16_of_isAscii {s : String} (h : isAscii s = true) : utf16 s = s.toList.map Char.toNat := by
  rw [isAscii_iff] at h
  rw [utf16]
  generalize s.toList = chars at h
  induction chars with
  | nil => rfl
  | cons c chars ih =>
    have hc := h c (by simp)
    rw [List.flatMap_cons, List.map_cons, ih fun d hd => h d (List.mem_cons_of_mem c hd), codeUnits,
      if_pos (by omega)]
    rfl

theorem map_toNat_lt_iff (s t : List Char) : s.map Char.toNat < t.map Char.toNat ↔ s < t := by
  induction s generalizing t with
  | nil => cases t <;> simp
  | cons c s ih =>
    cases t with
    | nil => simp
    | cons d t =>
      have hlt : c.toNat < d.toNat ↔ c < d := Iff.rfl
      simp only [List.map_cons, List.cons_lt_cons_iff, ih, Char.toNat_inj, hlt]

/-- On ASCII text the order of code units is that of code points. -/
theorem jsLt_iff_of_isAscii {s t : String} (hs : isAscii s = true) (ht : isAscii t = true) :
    jsLt s t = true ↔ s < t := by
  rw [jsLt, decide_eq_true_eq, utf16_of_isAscii hs, utf16_of_isAscii ht, map_toNat_lt_iff]
  exact String.lt_iff.symm

theorem isWhitespace_eq {c : Char} (h : c.toNat < 128) : isWhitespace c = isTrimmed c := by
  unfold isWhitespace isTrimmed
  have hne : ∀ n, 128 ≤ n → (c.toNat == n) = false := fun n hn => by simp; omega
  have hle : decide (0x2000 ≤ c.toNat) = false := by simp; omega
  simp [hne, hle]

theorem dropWhile_congr {p q : Char → Bool} {chars : List Char} (h : ∀ c ∈ chars, p c = q c) :
    chars.dropWhile p = chars.dropWhile q := by
  induction chars with
  | nil => rfl
  | cons c chars ih =>
    have hc := h c (by simp)
    rw [List.dropWhile_cons, List.dropWhile_cons, hc, ih fun d hd => h d (List.mem_cons_of_mem c hd)]

theorem strTrim_eq {s : String} (h : isAscii s = true) : strTrim s = trim s := by
  rw [isAscii_iff] at h
  have hleft : s.toList.dropWhile isWhitespace = s.toList.dropWhile isTrimmed :=
    dropWhile_congr fun c hc => isWhitespace_eq (h c hc)
  have hright : (s.toList.dropWhile isTrimmed).rdropWhile isWhitespace =
      (s.toList.dropWhile isTrimmed).rdropWhile isTrimmed := by
    unfold List.rdropWhile
    rw [dropWhile_congr]
    intro c hc
    have hmem := (List.dropWhile_suffix isTrimmed).subset (List.mem_reverse.1 hc)
    exact isWhitespace_eq (h c hmem)
  rw [strTrim, trim, hleft, hright]

theorem isAscii_trim {s : String} (h : isAscii s = true) : isAscii (trim s) = true := by
  rw [isAscii_iff] at h ⊢
  intro c hc
  rw [trim, String.toList_ofList] at hc
  have hleft := (List.rdropWhile_prefix isTrimmed (l := s.toList.dropWhile isTrimmed)).subset hc
  exact h c ((List.dropWhile_suffix isTrimmed).subset hleft)

theorem escapeChar_ascii {c : Char} (h : c.toNat < 128) : ∀ d ∈ escapeChar c, d.toNat < 128 := by
  have hall : (List.range 128).all (fun n => isAscii (String.ofList (escapeChar (Char.ofNat n)))) = true := by
    decide +kernel
  have hc := List.all_eq_true.1 hall c.toNat (List.mem_range.2 h)
  rwa [Char.ofNat_toNat, isAscii_iff, String.toList_ofList] at hc

theorem isAscii_quote {s : String} (h : isAscii s = true) : isAscii (quote s) = true := by
  rw [isAscii_iff] at h ⊢
  intro c hc
  rw [quote, String.toList_ofList, List.mem_append, List.mem_cons, List.mem_flatMap, List.mem_singleton] at hc
  rcases hc with (rfl | ⟨d, hd, hc⟩) | rfl
  · decide
  · exact escapeChar_ascii (h d hd) c hc
  · decide

/-! ### Values both languages write alike -/

section
variable (text name : String → Bool) (number : Rat → Bool)

mutual

/-- Every string, every name and every number inside a value passes its test. -/
def holdsInside : Json → Bool
  | .null => true
  | .bool _ => true
  | .num n => number n
  | .str s => text s
  | .arr items => holdsInItems items
  | .obj entries => holdsInEntries entries

def holdsInItems : List Json → Bool
  | [] => true
  | v :: rest => holdsInside v && holdsInItems rest

def holdsInEntries : List (String × Json) → Bool
  | [] => true
  | (k, v) :: rest => name k && holdsInside v && holdsInEntries rest

end

theorem holdsInEntries_iff {entries : Record} :
    holdsInEntries text name number entries = true ↔
      ∀ e ∈ entries, name e.1 = true ∧ holdsInside text name number e.2 = true := by
  induction entries with
  | nil => simp [holdsInEntries]
  | cons e entries ih => simp [holdsInEntries, ih]

end

section
variable {text text' name name' : String → Bool} {number number' : Rat → Bool}

mutual

theorem holdsInside_and (v : Json) :
    holdsInside (fun s => text s && text' s) (fun k => name k && name' k) (fun n => number n && number' n) v =
      (holdsInside text name number v && holdsInside text' name' number' v) := by
  cases v with
  | arr items => exact holdsInItems_and items
  | obj entries => exact holdsInEntries_and entries
  | _ => simp [holdsInside]

theorem holdsInItems_and (items : List Json) :
    holdsInItems (fun s => text s && text' s) (fun k => name k && name' k) (fun n => number n && number' n) items =
      (holdsInItems text name number items && holdsInItems text' name' number' items) := by
  cases items with
  | nil => rfl
  | cons v rest =>
    rw [holdsInItems, holdsInItems, holdsInItems, holdsInside_and v, holdsInItems_and rest]
    simp only [Bool.and_assoc, Bool.and_left_comm]

theorem holdsInEntries_and (entries : List (String × Json)) :
    holdsInEntries (fun s => text s && text' s) (fun k => name k && name' k) (fun n => number n && number' n)
        entries =
      (holdsInEntries text name number entries && holdsInEntries text' name' number' entries) := by
  cases entries with
  | nil => rfl
  | cons e rest =>
    obtain ⟨k, v⟩ := e
    rw [holdsInEntries, holdsInEntries, holdsInEntries, holdsInside_and v, holdsInEntries_and rest]
    simp only [Bool.and_assoc, Bool.and_left_comm]

end

end

theorem insertionSort_congr {α : Type} {r s : α → α → Prop} [DecidableRel r] [DecidableRel s] {l : List α}
    (h : ∀ a ∈ l, ∀ b ∈ l, r a b ↔ s a b) : l.insertionSort r = l.insertionSort s := by
  have hinsert : ∀ (a : α) (l : List α), (∀ b ∈ l, r a b ↔ s a b) → l.orderedInsert r a = l.orderedInsert s a := by
    intro a l hal
    induction l with
    | nil => rfl
    | cons b l ih =>
      have hb := hal b (by simp)
      rw [List.orderedInsert, List.orderedInsert, ih fun c hc => hal c (List.mem_cons_of_mem b hc)]
      simp only [hb]
  induction l with
  | nil => rfl
  | cons a l ih =>
    rw [List.insertionSort_cons, List.insertionSort_cons,
      ih fun b hb c hc => h b (List.mem_cons_of_mem a hb) c (List.mem_cons_of_mem a hc)]
    apply hinsert
    intro b hb
    have hmem := (List.perm_insertionSort s l).mem_iff.1 hb
    exact h a (by simp) b (List.mem_cons_of_mem a hmem)

def isAsciiRecord (record : Record) : Bool := holdsInEntries isAscii isAscii (fun _ => true) record

/-- Every JavaScript object lists the property where its name sorts, and assigning it makes one. -/
def isPlainName (name : String) : Bool := (arrayIndex? name).isNone && name != "__proto__"

theorem isSignatureKey_eq (all : Bool) (kind : Option Json) {key : String} (hkey : isPlainName key = true) :
    isSignatureKey all (kind == some (.str "file")) key = isComparableKey all kind key := by
  rw [isPlainName, Bool.and_eq_true] at hkey
  have hkind : decide (kind ≠ some (.str "file")) = !(kind == some (.str "file")) := by
    by_cases h : kind = some (.str "file") <;> simp [h]
  rw [isSignatureKey, isComparableKey, hkind, hkey.2, Bool.and_true]
  rfl

theorem toComparableValue_obj_ne_null {all : Bool} {record : Record} :
    toComparableValue all (.obj record) ≠ some .null := by
  rw [toComparableValue]
  split_ifs
  · simp
  · simp

section
variable [Runtime] [RustRuntime]

def isSameNumber (n : Rat) : Bool :=
  Runtime.numberToString n == RustRuntime.numberToString n && isAscii (Runtime.numberToString n)

/-- Names and numbers that both languages write alike. -/
def isWrittenAlike (record : Record) : Bool :=
  holdsInEntries (fun _ => true) isPlainName isSameNumber record

/-- Text both languages have for a value. -/
structure SameText (v : Json) : Prop where
  same : stringify v = serdeString v
  ascii : isAscii (stringify v) = true

theorem sameText_items {items : List Json} (h : ∀ v ∈ items, SameText v) :
    stringifyItems items = serdeItems items ∧ isAscii (stringifyItems items) = true := by
  induction items with
  | nil => exact ⟨rfl, rfl⟩
  | cons v rest ih =>
    have hv := h v (by simp)
    obtain ⟨hrest, hascii⟩ := ih fun w hw => h w (List.mem_cons_of_mem v hw)
    cases rest with
    | nil => exact ⟨hv.same, hv.ascii⟩
    | cons w rest =>
      rw [stringifyItems, serdeItems, hv.same, hrest, isAscii_append, isAscii_append]
      · rw [hrest] at hascii
        have hvascii := hv.ascii
        rw [hv.same] at hvascii
        exact ⟨rfl, by rw [hvascii, hascii]; rfl⟩
      · simp
      · simp

/-- What both languages can write of one property. -/
structure SameEntry (e : String × Json) : Prop where
  asciiName : isAscii e.1 = true
  plainName : isPlainName e.1 = true
  text : SameText e.2

theorem sameText_entries {entries : Record} (h : ∀ e ∈ entries, SameEntry e) :
    stringifyEntries entries = serdeEntries entries ∧ isAscii (stringifyEntries entries) = true := by
  induction entries with
  | nil => exact ⟨rfl, rfl⟩
  | cons e rest ih =>
    obtain ⟨k, v⟩ := e
    have hv := h (k, v) (by simp)
    have hascii : isAscii (quote k ++ ":" ++ serdeString v) = true := by
      rw [isAscii_append, isAscii_append, isAscii_quote hv.asciiName, ← hv.text.same, hv.text.ascii]
      rfl
    obtain ⟨hrest, hrestAscii⟩ := ih fun w hw => h w (List.mem_cons_of_mem (k, v) hw)
    cases rest with
    | nil =>
      rw [stringifyEntries, serdeEntries, hv.text.same]
      exact ⟨rfl, hascii⟩
    | cons w rest =>
      rw [hrest] at hrestAscii
      rw [stringifyEntries, serdeEntries, hv.text.same, hrest, isAscii_append, isAscii_append, hascii, hrestAscii]
      · exact ⟨rfl, rfl⟩
      · simp
      · simp

theorem sameText_arr {items : List Json} (h : ∀ v ∈ items, SameText v) : SameText (.arr items) := by
  obtain ⟨hsame, hascii⟩ := sameText_items h
  rw [hsame] at hascii
  constructor
  · rw [stringify, serdeString, hsame]
  · rw [stringify, hsame, isAscii_append, isAscii_append, hascii]
    rfl

theorem sameText_obj {entries : Record} (h : ∀ e ∈ entries, SameEntry e) : SameText (.obj entries) := by
  obtain ⟨hsame, hascii⟩ := sameText_entries h
  rw [hsame] at hascii
  constructor
  · rw [stringify, serdeString, hsame]
  · rw [stringify, hsame, isAscii_append, isAscii_append, hascii]
    rfl

/-! ### The two views of a value -/

theorem sortByName_eq {entries : Record} (h : ∀ e ∈ entries, SameEntry e) :
    propertyOrder (sortKeys entries) = sortByName entries := by
  have hsort : sortKeys entries = sortByName entries := by
    apply insertionSort_congr
    intro a ha b hb
    have hlt := jsLt_iff_of_isAscii (h b hb).asciiName (h a ha).asciiName
    by_cases hba : b.1 < a.1
    · simp [hba, hlt.2 hba]
    · have hfalse : jsLt b.1 a.1 = false := by
        rw [← Bool.not_eq_true, hlt]
        exact hba
      simp [hba, hfalse]
  have hplain : ∀ e ∈ sortByName entries, (arrayIndex? e.1).isNone = true := by
    intro e he
    have hname := (h e ((List.perm_insertionSort _ entries).mem_iff.1 he)).plainName
    rw [isPlainName, Bool.and_eq_true] at hname
    exact hname.1
  have hindex : (sortByName entries).filter (fun e => (arrayIndex? e.1).isSome) = [] := by
    rw [List.filter_eq_nil_iff]
    intro e he
    simpa using hplain e he
  rw [hsort, propertyOrder, hindex, List.filter_eq_self.2 hplain]
  rfl

/-- The conditions on a value under which the two views agree. -/
def isSharedValue (v : Json) : Bool :=
  holdsInside isAscii (fun k => isAscii k && isPlainName k) isSameNumber v

def isSharedRecord (record : Record) : Bool :=
  holdsInEntries isAscii (fun k => isAscii k && isPlainName k) isSameNumber record

theorem isSharedRecord_eq (record : Record) :
    isSharedRecord record = (isAsciiRecord record && isWrittenAlike record) := by
  rw [isAsciiRecord, isWrittenAlike, ← holdsInEntries_and]
  simp only [Bool.and_true, Bool.true_and, isSharedRecord]

/-- What the native view of a value is, given core's. -/
structure SameView (native : Option Json) (core : Option Json) : Prop where
  view : native = core.filter fun c => c != .null
  text : ∀ c, core = some c → SameText c

mutual

theorem sameView (all : Bool) (v : Json) (h : isSharedValue v = true) :
    SameView (entitySignatureValue all v) (toComparableValue all v) := by
  cases v with
  | null =>
    have hascii : isAscii "null" = true := by decide
    exact ⟨rfl, fun c hc => Option.some.inj hc ▸ ⟨rfl, hascii⟩⟩
  | bool b =>
    have hascii : isAscii (if b then "true" else "false") = true := by cases b <;> decide
    exact ⟨rfl, fun c hc => Option.some.inj hc ▸ ⟨rfl, hascii⟩⟩
  | num n =>
    rw [isSharedValue, holdsInside, isSameNumber, Bool.and_eq_true, beq_iff_eq] at h
    exact ⟨rfl, fun c hc => Option.some.inj hc ▸ ⟨h.1, h.2⟩⟩
  | str s =>
    have hascii : isAscii s = true := h
    rw [entitySignatureValue, toComparableValue, strTrim_eq hascii, isBlank]
    by_cases hblank : trim s = ""
    · rw [if_pos hblank, if_pos (by simpa using hblank)]
      exact ⟨rfl, fun c hc => by cases hc⟩
    · rw [if_neg hblank, if_neg (by simpa using hblank)]
      refine ⟨rfl, fun c hc => Option.some.inj hc ▸ ⟨rfl, ?_⟩⟩
      exact isAscii_quote (isAscii_trim hascii)
  | arr items =>
    obtain ⟨hview, htext⟩ := sameItems all items h
    rw [entitySignatureValue, toComparableValue, hview]
    split
    · exact ⟨rfl, fun c hc => by cases hc⟩
    · exact ⟨rfl, fun c hc => Option.some.inj hc ▸ sameText_arr htext⟩
  | obj entries =>
    obtain ⟨hview, hentry⟩ := sameEntries all (lookup "kind" entries) entries h
    rw [entitySignatureValue, toComparableValue, hview]
    split
    · exact ⟨rfl, fun c hc => by cases hc⟩
    · rw [sortByName_eq hentry]
      refine ⟨rfl, fun c hc => Option.some.inj hc ▸ sameText_obj ?_⟩
      intro e he
      exact hentry e ((List.perm_insertionSort _ _).mem_iff.1 he)

theorem sameItems (all : Bool) (items : List Json)
    (h : holdsInItems isAscii (fun k => isAscii k && isPlainName k) isSameNumber items = true) :
    signatureItems all items = comparableItems all items ∧ ∀ c ∈ comparableItems all items, SameText c := by
  cases items with
  | nil => exact ⟨rfl, fun c hc => by cases hc⟩
  | cons v rest =>
    rw [holdsInItems, Bool.and_eq_true] at h
    obtain ⟨hview, htext⟩ := sameView all v h.1
    obtain ⟨hrest, hrestText⟩ := sameItems all rest h.2
    rw [signatureItems, comparableItems, hview, hrest]
    cases hv : toComparableValue all v with
    | none => exact ⟨rfl, hrestText⟩
    | some c =>
      have hc := htext c hv
      cases c with
      | null => exact ⟨rfl, hrestText⟩
      | _ =>
        refine ⟨rfl, ?_⟩
        intro d hd
        rcases List.mem_cons.1 hd with rfl | hd
        · exact hc
        · exact hrestText d hd

theorem sameEntries (all : Bool) (kind : Option Json) (entries : List (String × Json))
    (h : holdsInEntries isAscii (fun k => isAscii k && isPlainName k) isSameNumber entries = true) :
    signatureEntries all (kind == some (.str "file")) entries = comparableEntries all kind entries ∧
      ∀ e ∈ comparableEntries all kind entries, SameEntry e := by
  cases entries with
  | nil => exact ⟨rfl, fun e he => by cases he⟩
  | cons e rest =>
    obtain ⟨k, v⟩ := e
    rw [holdsInEntries, Bool.and_eq_true, Bool.and_eq_true, Bool.and_eq_true] at h
    obtain ⟨⟨⟨hascii, hplain⟩, hv⟩, hrest⟩ := h
    obtain ⟨hview, htext⟩ := sameView all v hv
    obtain ⟨hrest, hrestEntry⟩ := sameEntries all kind rest hrest
    rw [signatureEntries, comparableEntries, hview, hrest, isSignatureKey_eq all kind hplain]
    split_ifs
    · cases hvalue : toComparableValue all v with
      | none => exact ⟨rfl, hrestEntry⟩
      | some c =>
        have hc := htext c hvalue
        cases c with
        | null => exact ⟨rfl, hrestEntry⟩
        | _ =>
          refine ⟨rfl, ?_⟩
          intro d hd
          rcases List.mem_cons.1 hd with rfl | hd
          · exact ⟨hascii, hplain, hc⟩
          · exact hrestEntry d hd
    · exact ⟨rfl, hrestEntry⟩

end

/-! ### The signature of a record -/

/-- A record with an id has one signature of each kind, the same in both languages. -/
theorem computeSignature_eq (all : Bool) {record : Record} {id : String} (hshared : isSharedRecord record = true)
    (hid : isBlank id = false) (hmem : ("id", .str id) ∈ record) :
    computeSignature all record = some (entityTieBreakJson (.obj record) all) ∧
      isAscii (entityTieBreakJson (.obj record) all) = true := by
  obtain ⟨hview, htext⟩ := sameView all (.obj record) hshared
  obtain ⟨signature, hsignature⟩ := computeSignature_isSome all hid hmem
  rw [computeSignature, Option.map_eq_some_iff] at hsignature
  obtain ⟨c, hc, rfl⟩ := hsignature
  have hnotNull : (c != .null) = true := by
    rw [bne_iff_ne]
    rintro rfl
    exact toComparableValue_obj_ne_null hc
  have hnative : entityTieBreakJson (.obj record) all = stringify c := by
    rw [entityTieBreakJson, hview, hc, Option.filter_some, if_pos hnotNull, (htext c hc).same]
  rw [computeSignature, hc, hnative]
  exact ⟨rfl, (htext c hc).ascii⟩

/-- The order of the two signatures of two records. -/
def signatureOrder (l i : Record) : Ordering :=
  (compare (entityTieBreakJson (.obj i) false) (entityTieBreakJson (.obj l) false)).then
    (compare (entityTieBreakJson (.obj i) true) (entityTieBreakJson (.obj l) true))

theorem chooseDeterministicWinner_eq_incoming {l i : Record} {idL idI : String} (hl : isSharedRecord l = true)
    (hi : isSharedRecord i = true) (hidL : isBlank idL = false) (hidI : isBlank idI = false)
    (hmemL : ("id", .str idL) ∈ l) (hmemI : ("id", .str idI) ∈ i) :
    chooseDeterministicWinner l i = .incomingItem ↔ signatureOrder l i ≠ .lt := by
  obtain ⟨hplainL, hasciiL⟩ := computeSignature_eq false hl hidL hmemL
  obtain ⟨hplainI, hasciiI⟩ := computeSignature_eq false hi hidI hmemI
  obtain ⟨hfullL, hfullAsciiL⟩ := computeSignature_eq true hl hidL hmemL
  obtain ⟨hfullI, hfullAsciiI⟩ := computeSignature_eq true hi hidI hmemI
  have hplain := jsLt_iff_of_isAscii hasciiL hasciiI
  have hfull := jsLt_iff_of_isAscii hfullAsciiL hfullAsciiI
  unfold chooseDeterministicWinner signatureOrder toComparableSignature toFullDeterministicSignature
  rw [hplainL, hplainI, hfullL, hfullI]
  generalize entityTieBreakJson (.obj l) false = a at *
  generalize entityTieBreakJson (.obj i) false = b at *
  generalize entityTieBreakJson (.obj l) true = c at *
  generalize entityTieBreakJson (.obj i) true = d at *
  simp only [signatureGt, Option.some.injEq]
  rcases lt_trichotomy a b with hab | rfl | hba
  · simp [compare_gt_iff_gt.2 hab, hab.ne, hplain.2 hab]
  · rcases lt_trichotomy c d with hcd | rfl | hdc
    · simp [compare_gt_iff_gt.2 hcd, hcd.ne, hfull.2 hcd]
    · simp
    · have hnot : jsLt c d = false := by
        rw [← Bool.not_eq_true, hfull]
        exact hdc.not_gt
      simp [compare_lt_iff_lt.2 hdc, hdc.ne', hnot]
  · have hnot : jsLt a b = false := by
      rw [← Bool.not_eq_true, hplain]
      exact hba.not_gt
    simp [compare_lt_iff_lt.2 hba, hba.ne', hnot]

end

end Mindwtr.Desktop
