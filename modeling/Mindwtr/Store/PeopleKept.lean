import Mindwtr.Store.PeopleLoad
import Mindwtr.Sync.Outranks

/-!
# The person that keeps a name

What a load leaves of the live people of a name (`namesakes_load`): the first one, with the latest time, the greatest
revision and the texts of all. Another device may have made a tombstone of that person. In a merge it wins against the
tombstone where it outlasts it (`winnerSide_kept_iff`).
-/

namespace Mindwtr.Store

open Mindwtr.Js Mindwtr.Sync MergeableEntity

/-! ### What a merge looks at -/

def personUpdatedAt (person : Person) (nowIso : String) : String :=
  (asStr? (normalizedPerson person nowIso).updatedAt).getD ""

def laterTime (a b : String) : String := if jsLt a b then b else a

/-- The latest time at which one of some namesakes was updated. -/
def newestUpdate (nowIso : String) : List Person → String
  | [] => ""
  | first :: others =>
    others.foldl (fun newest person => laterTime newest (personUpdatedAt person nowIso)) (personUpdatedAt first nowIso)

/-- The first writer that one of some namesakes names. -/
def firstWriter : List Person → Option Json
  | [] => none
  | first :: others => others.foldl (fun writer person => coalesce writer person.revBy) first.revBy

theorem newestUpdate_append {nowIso : String} {people : List Person} (h : people ≠ []) (person : Person) :
    newestUpdate nowIso (people ++ [person]) =
      laterTime (newestUpdate nowIso people) (personUpdatedAt person nowIso) := by
  cases people with
  | nil => exact absurd rfl h
  | cons first others => simp [newestUpdate, List.foldl_append]

theorem firstWriter_append {people : List Person} (h : people ≠ []) (person : Person) :
    firstWriter (people ++ [person]) = coalesce (firstWriter people) person.revBy := by
  cases people with
  | nil => exact absurd rfl h
  | cons first others => simp [firstWriter, List.foldl_append]

/-! ### The kept person -/

section
variable {nowIso : String} {people : List Person} {kept : Person}

/-- The kept person is the first one, and what each of the others makes of it. -/
theorem keptPerson_induction {motive : List Person → Person → Prop}
    (first : ∀ person, motive [person] (normalizedPerson person nowIso))
    (others : ∀ people kept person, people ≠ [] → motive people kept →
      motive (people ++ [person]) (mergedPerson kept (normalizedPerson person nowIso)))
    (h : keptPerson nowIso people = some kept) : motive people kept := by
  induction people using List.reverseRecOn generalizing kept with
  | nil => cases h
  | append_singleton people person ih =>
    cases hbefore : keptPerson nowIso people with
    | none =>
      obtain rfl := keptPerson_eq_none.1 hbefore
      obtain rfl := Option.some.inj h
      exact first person
    | some before =>
      rw [keptPerson_append hbefore] at h
      obtain rfl := Option.some.inj h
      apply others people before person _ (ih hbefore)
      rintro rfl
      cases hbefore

theorem trimmedOrAbsent_cases (value : Option Json) :
    trimmedOrAbsent value = none ∨ ∃ s, trimmedOrAbsent value = some (.str s) := by
  unfold trimmedOrAbsent
  cases asStr? value with
  | none => exact .inl rfl
  | some s =>
    dsimp only [Option.bind_some]
    split_ifs
    · exact .inl rfl
    · exact .inr ⟨_, rfl⟩

theorem normalizedPerson_updatedAt (person : Person) (nowIso : String) :
    (normalizedPerson person nowIso).updatedAt = some (.str (personUpdatedAt person nowIso)) := by
  have hsome : ∃ s, (normalizedPerson person nowIso).updatedAt = some (.str s) := by
    simp only [normalizedPerson, personCreatedAt]
    rcases trimmedOrAbsent_cases person.updatedAt with hu | ⟨s, hu⟩
    · rcases trimmedOrAbsent_cases person.createdAt with hc | ⟨s, hc⟩
      · exact ⟨nowIso, by simp [hu, hc]⟩
      · exact ⟨s, by simp [hu, hc]⟩
    · exact ⟨s, by simp [hu]⟩
  obtain ⟨s, hs⟩ := hsome
  rw [personUpdatedAt, hs]
  rfl

theorem keptPerson_updatedAt (h : keptPerson nowIso people = some kept) :
    kept.updatedAt = some (.str (newestUpdate nowIso people)) := by
  apply keptPerson_induction (motive := fun people kept => kept.updatedAt = some (.str (newestUpdate nowIso people))) _ _ h
  · intro person
    exact normalizedPerson_updatedAt person nowIso
  · intro people kept person hne ih
    rw [newestUpdate_append hne]
    have hlater : (mergedPerson kept (normalizedPerson person nowIso)).updatedAt =
        laterText (some (.str (newestUpdate nowIso people))) (some (.str (personUpdatedAt person nowIso))) := by
      rw [← ih, ← normalizedPerson_updatedAt]
      rfl
    rw [hlater, laterText, laterTime]
    exact (apply_ite (fun time => some (Json.str time)) _ _ _).symm

theorem keptPerson_revBy (h : keptPerson nowIso people = some kept) : kept.revBy = firstWriter people := by
  apply keptPerson_induction (motive := fun people kept => kept.revBy = firstWriter people) _ _ h
  · exact fun person => rfl
  · intro people kept person hne ih
    rw [firstWriter_append hne, ← ih]
    rfl

/-- Of two revisions the greater one is kept, where it is positive. -/
theorem le_revOf_mergedPerson {n : Nat} (hn : 0 < n) (kept person : Person) :
    (n : Rat) ≤ revOf (mergedPerson kept person) ↔ (n : Rat) ≤ revOf kept ∨ (n : Rat) ≤ revOf person := by
  have hpos : (0 : Rat) < n := by exact_mod_cast hn
  have hrev : revOf (mergedPerson kept person) = (asNum? (greaterRevision kept.rev person.rev)).getD 0 := rfl
  have hkept : revOf kept = (asNum? kept.rev).getD 0 := rfl
  have hperson : revOf person = (asNum? person.rev).getD 0 := rfl
  rw [hrev, hkept, hperson, greaterRevision, ← le_max_iff]
  by_cases hzero : max ((asNum? kept.rev).getD 0) ((asNum? person.rev).getD 0) = 0
  · -- what is left where neither is positive is not greater
    obtain ⟨hk, hp⟩ : (asNum? kept.rev).getD 0 ≤ 0 ∧ (asNum? person.rev).getD 0 ≤ 0 := max_le_iff.1 (le_of_eq hzero)
    simp only [hzero, ne_eq, not_true_eq_false, if_false]
    constructor
    · intro hle
      split_ifs at hle <;> linarith
    · intro hle
      linarith
  · simp only [ne_eq, hzero, not_false_eq_true, if_true]
    rfl

theorem le_revOf_keptPerson {n : Nat} (hn : 0 < n) (h : keptPerson nowIso people = some kept) :
    (n : Rat) ≤ revOf kept ↔ ∃ person ∈ people, (n : Rat) ≤ revOf person := by
  apply keptPerson_induction (motive := fun people kept => (n : Rat) ≤ revOf kept ↔
    ∃ person ∈ people, (n : Rat) ≤ revOf person) _ _ h
  · intro person
    simp only [List.mem_singleton, exists_eq_left]
    exact Iff.rfl
  · intro people kept person _ ih
    rw [le_revOf_mergedPerson hn, ih]
    have hnormalized : revOf (normalizedPerson person nowIso) = revOf person := rfl
    simp only [hnormalized, List.mem_append, List.mem_singleton, or_and_right, exists_or, exists_eq_left]

theorem isLivePerson_iff {person : Person} : isLivePerson person = true ↔ isNamed person = true ∧ truthy person.deletedAt = false := by
  simp [isLivePerson]

theorem keptPerson_frame (h : keptPerson nowIso people = some kept) :
    ∃ first, people.head? = some first ∧ kept.deletedAt = first.deletedAt ∧
      kept.name = some (.str (normalizePersonName first.name)) := by
  apply keptPerson_induction (motive := fun people kept => ∃ first, people.head? = some first ∧
    kept.deletedAt = first.deletedAt ∧ kept.name = some (.str (normalizePersonName first.name))) _ _ h
  · exact fun person => ⟨person, rfl, rfl, rfl⟩
  · rintro people kept person hne ⟨first, hhead, hdeleted, hname⟩
    exact ⟨first, by rw [List.head?_append_of_ne_nil _ hne, hhead], hdeleted, hname⟩

/-- A repair of a text property, which is done once. -/
structure IsCleanup (clean : Option Json → Option Json) : Prop where
  text : ∀ value, clean value = none ∨ ∃ s, clean value = some (.str s)
  idem : ∀ value, clean (clean value) = clean value

theorem isCleanup_note : IsCleanup normalizePersonNote := ⟨trimmedOrAbsent_cases, trimmedOrAbsent_idem⟩

theorem isCleanup_referenceLink : IsCleanup normalizePersonReferenceLink := by
  have hcases : ∀ value, normalizePersonReferenceLink value = none ∨
      normalizePersonReferenceLink value = trimmedOrAbsent value := by
    intro value
    unfold normalizePersonReferenceLink
    rcases trimmedOrAbsent_cases value with h | ⟨s, h⟩
    · simp [h]
    · rw [h, Option.filter_some]
      split_ifs
      · exact .inr rfl
      · exact .inl rfl
  constructor
  · intro value
    rcases hcases value with h | h
    · exact .inl h
    · rw [h]
      exact trimmedOrAbsent_cases value
  · intro value
    rcases hcases value with h | h
    · rw [h]
      rfl
    · rw [h, normalizePersonReferenceLink, trimmedOrAbsent_idem, ← normalizePersonReferenceLink, h]

/-- The kept person has a text that one of the namesakes had. -/
theorem keptPerson_text {field : Person → Option Json} {clean : Option Json → Option Json} (hclean : IsCleanup clean)
    (hnormalized : ∀ person, field (normalizedPerson person nowIso) = clean (field person))
    (hmerged : ∀ kept person, field (mergedPerson kept person) = coalesce (field kept) (field person))
    (h : keptPerson nowIso people = some kept) (hsome : ∃ person ∈ people, (clean (field person)).isSome) :
    (clean (field kept)).isSome := by
  have hkept : (∃ value, field kept = clean value) ∧
      ((∃ person ∈ people, (clean (field person)).isSome) → (field kept).isSome) := by
    apply keptPerson_induction (motive := fun people kept => (∃ value, field kept = clean value) ∧
      ((∃ person ∈ people, (clean (field person)).isSome) → (field kept).isSome)) _ _ h
    · intro person
      refine ⟨⟨_, hnormalized person⟩, ?_⟩
      rintro ⟨q, hq, hqsome⟩
      obtain rfl := List.mem_singleton.1 hq
      rwa [hnormalized]
    · intro people kept person _ ih
      obtain ⟨⟨value, hvalue⟩, hfound⟩ := ih
      rw [hmerged, hnormalized]
      rcases hclean.text value with hnone | ⟨s, hs⟩
      · have hempty : field kept = none := hvalue.trans hnone
        rw [hempty]
        refine ⟨⟨field person, rfl⟩, ?_⟩
        rintro ⟨q, hq, hqsome⟩
        rcases List.mem_append.1 hq with hq | hq
        · have hkeptSome := hfound ⟨q, hq, hqsome⟩
          rw [hempty] at hkeptSome
          cases hkeptSome
        · obtain rfl := List.mem_singleton.1 hq
          exact hqsome
      · have hfull : field kept = some (.str s) := hvalue.trans hs
        rw [hfull]
        exact ⟨⟨value, hs.symm⟩, fun _ => rfl⟩
  obtain ⟨⟨value, hvalue⟩, hfound⟩ := hkept
  have hkeptSome := hfound hsome
  rwa [hvalue, ← hclean.idem value, ← hvalue] at hkeptSome

end

/-! ### The people of a device after a load -/

theorem filter_eq_toList {people : List Person} (hnodup : people.Nodup) {found : Option Person}
    (hfound : ∀ person, found = some person → person ∈ people) :
    people.filter (fun person => decide (found = some person)) = found.toList := by
  cases found with
  | none => simp
  | some person =>
    have hcount := List.count_eq_one_of_mem hnodup (hfound person rfl)
    have hsame : people.filter (fun q => decide (some person = some q)) = people.filter (· == person) := by
      apply List.filter_congr
      intro q _
      rw [Bool.eq_iff_iff, decide_eq_true_eq, beq_iff_eq, Option.some_inj]
      exact eq_comm
    rw [hsame, List.filter_beq, hcount]
    rfl

section
variable [Runtime]

def hasNote (person : Person) : Bool := (normalizePersonNote person.note).isSome

def hasReferenceLink (person : Person) : Bool := (normalizePersonReferenceLink person.referenceLink).isSome

variable (nowIso : String) (deviceId : Option String) {people : List Person} {person : Person}

/-- Of the people of a list, one that is live keeps its name or is retired. -/
theorem loadedPerson_live (hids : (people.map (·.id)).Nodup) (hperson : person ∈ people)
    (hlive : isLivePerson person = true) :
    ((namesakes (nameKey person) people).head? = some person ∧
      ∃ kept, keptPerson nowIso (namesakes (nameKey person) people) = some kept ∧
        loadedPerson nowIso deviceId people person = kept) ∨
    ((namesakes (nameKey person) people).head? ≠ some person ∧
      loadedPerson nowIso deviceId people person = retiredPerson (normalizedPerson person nowIso) nowIso deviceId) := by
  obtain ⟨hnamed, hdeleted⟩ := isLivePerson_iff.1 hlive
  have hmem : person ∈ namesakes (nameKey person) people := mem_namesakes.2 ⟨hperson, hlive, rfl⟩
  cases hlist : namesakes (nameKey person) people with
  | nil =>
    rw [hlist] at hmem
    cases hmem
  | cons first others =>
    obtain ⟨kept, hkept⟩ : ∃ kept, keptPerson nowIso (first :: others) = some kept := ⟨_, rfl⟩
    have hid := keptPerson_id hkept
    have hfirst : first ∈ people := (mem_namesakes.1 (hlist ▸ List.mem_cons_self)).1
    by_cases hsame : first = person
    · left
      refine ⟨by simp [hsame], kept, hkept, ?_⟩
      rw [loadedPerson, hlist, hkept]
      simp [hnamed, hdeleted, hid, hsame]
    · right
      refine ⟨by simpa using hsame, ?_⟩
      have hne : ¬kept.id = person.id :=
        fun heq => hsame (List.inj_on_of_nodup_map hids hfirst hperson (hid.symm.trans heq))
      rw [loadedPerson, hlist, hkept]
      simp [hnamed, hdeleted, hne]

theorem isNamed_of_name {person q : Person} (hname : q.name = some (.str (normalizePersonName person.name))) :
    isNamed q = isNamed person ∧ nameKey q = nameKey person := by
  rw [isNamed, nameKey, hname, normalizePersonName_idem, getPersonNameKey_normalized]
  exact ⟨rfl, rfl⟩

/-- A load does not change the name of a person that has one. -/
theorem nameKey_loadedPerson (hids : (people.map (·.id)).Nodup) (hperson : person ∈ people)
    (hnamed : isNamed person = true) :
    isNamed (loadedPerson nowIso deviceId people person) = true ∧
      nameKey (loadedPerson nowIso deviceId people person) = nameKey person := by
  have hname : (loadedPerson nowIso deviceId people person).name = some (.str (normalizePersonName person.name)) := by
    by_cases hdeleted : truthy person.deletedAt = true
    · rw [loadedPerson]
      simp [hnamed, hdeleted, normalizedPerson]
    · have hlive : isLivePerson person = true := isLivePerson_iff.2 ⟨hnamed, by simpa using hdeleted⟩
      rcases loadedPerson_live nowIso deviceId hids hperson hlive with ⟨hhead, kept, hkept, heq⟩ | ⟨-, heq⟩
      · obtain ⟨first, hfirst, -, hfirstName⟩ := keptPerson_frame hkept
        rw [heq, hfirstName, Option.some.inj (hfirst.symm.trans hhead)]
      · rw [heq]
        rfl
  obtain ⟨hsame, hkey⟩ := isNamed_of_name hname
  exact ⟨hsame.trans hnamed, hkey⟩

theorem deletedAt_of_not_live (hnow : nowIso ≠ "")
    (hdeletedAt : isNullish person.deletedAt = true ∨ truthy person.deletedAt = true)
    (hlive : ¬isLivePerson person = true) :
    truthy (loadedPerson nowIso deviceId people person).deletedAt = true := by
  by_cases hnamed : isNamed person = true
  · have hdeleted : truthy person.deletedAt = true := by
      by_contra hfalse
      exact hlive (isLivePerson_iff.2 ⟨hnamed, by simpa using hfalse⟩)
    rw [loadedPerson]
    simp [hnamed, hdeleted, normalizedPerson]
  · rw [loadedPerson]
    simp only [hnamed, Bool.not_false, if_true, normalizedBlankPerson, coalesce]
    rcases hdeletedAt with hnull | htruthy
    · simp [hnull, hnow, Json.truthy]
    · have hnot : isNullish person.deletedAt = false := by
        by_contra hnull
        rw [Bool.not_eq_false] at hnull
        rw [truthy_of_isNullish hnull] at htruthy
        cases htruthy
      simp [hnot, htruthy]

/-- A person is live after a load where it was the first live one of its name. -/
theorem isLivePerson_loadedPerson (hids : (people.map (·.id)).Nodup) (hperson : person ∈ people) (hnow : nowIso ≠ "")
    (hdeletedAt : isNullish person.deletedAt = true ∨ truthy person.deletedAt = true) :
    isLivePerson (loadedPerson nowIso deviceId people person) = true ↔
      isLivePerson person = true ∧ (namesakes (nameKey person) people).head? = some person := by
  by_cases hlive : isLivePerson person = true
  · obtain ⟨hnamed, hdeleted⟩ := isLivePerson_iff.1 hlive
    rw [isLivePerson_iff]
    have hname := (nameKey_loadedPerson nowIso deviceId hids hperson hnamed).1
    rcases loadedPerson_live nowIso deviceId hids hperson hlive with ⟨hhead, kept, hkept, heq⟩ | ⟨hhead, heq⟩
    · obtain ⟨first, hfirst, hfirstDeleted, -⟩ := keptPerson_frame hkept
      obtain rfl := Option.some.inj (hfirst.symm.trans hhead)
      rw [heq] at hname
      simp [hlive, hhead, hname, heq, hfirstDeleted, hdeleted]
    · simp [hhead, heq, retiredPerson, hnow, Json.truthy]
  · have hgone : truthy (loadedPerson nowIso deviceId people person).deletedAt = true :=
      deletedAt_of_not_live nowIso deviceId hnow hdeletedAt hlive
    rw [isLivePerson_iff, hgone]
    simp [hlive]

/-- A load leaves no time of deletion that is neither there nor missing. -/
theorem deletedAt_loadedPerson {nowIso : String} {deviceId : Option String} {people : List Person} {person : Person}
    (hids : (people.map (·.id)).Nodup) (hnow : nowIso ≠ "")
    (hdeletedAt : ∀ person ∈ people, isNullish person.deletedAt = true ∨ truthy person.deletedAt = true)
    (hperson : person ∈ people) :
    isNullish (loadedPerson nowIso deviceId people person).deletedAt = true ∨
      truthy (loadedPerson nowIso deviceId people person).deletedAt = true := by
  by_cases hlive : isLivePerson person = true
  · rcases loadedPerson_live nowIso deviceId hids hperson hlive with ⟨-, kept, hkept, heq⟩ | ⟨-, heq⟩
    · obtain ⟨first, hfirst, hdeleted, -⟩ := keptPerson_frame hkept
      rw [heq, hdeleted]
      exact hdeletedAt first (mem_namesakes.1 (List.mem_of_mem_head? hfirst)).1
    · right
      rw [heq]
      simpa [retiredPerson, Json.truthy] using hnow
  · exact .inr (deletedAt_of_not_live nowIso deviceId hnow (hdeletedAt person hperson) hlive)

/-- A name of the list has one live person after a load, or none where it had none. -/
theorem namesakes_load (tasks : List Task) {uuid : Nat → String} {key : String} (hids : (people.map (·.id)).Nodup)
    (huuid : IsFresh uuid people) (hnow : nowIso ≠ "")
    (hdeletedAt : ∀ person ∈ people, isNullish person.deletedAt = true ∨ truthy person.deletedAt = true)
    (hkey : ∃ person ∈ people, isNamed person = true ∧ nameKey person = key) :
    namesakes key (normalizePeopleForLoad people tasks nowIso deviceId uuid).people =
      (keptPerson nowIso (namesakes key people)).toList := by
  obtain ⟨derived, hpeople, -, hderived⟩ := normalizePeopleForLoad_eq nowIso deviceId tasks hids huuid
  obtain ⟨holder, hholder, hholderNamed, hholderKey⟩ := hkey
  have hnew : namesakes key derived = [] := by
    rw [List.eq_nil_iff_forall_not_mem]
    intro q hq
    obtain ⟨hmem, -, hqkey⟩ := mem_namesakes.1 hq
    exact (hderived q hmem).2 holder hholder hholderNamed (hholderKey.trans hqkey.symm)
  have hmem : ∀ person, (namesakes key people).head? = some person → person ∈ namesakes key people :=
    fun person hhead => List.mem_of_mem_head? hhead
  -- of the people of the list, the first live one of the name is live afterwards
  have hfiltered : people.filter (fun person => isLivePerson (loadedPerson nowIso deviceId people person) &&
      nameKey (loadedPerson nowIso deviceId people person) == key) = (namesakes key people).head?.toList := by
    rw [← filter_eq_toList (hids.of_map _) fun person hhead => (mem_namesakes.1 (hmem person hhead)).1]
    apply List.filter_congr
    intro person hperson
    rw [Bool.eq_iff_iff, Bool.and_eq_true, decide_eq_true_eq, beq_iff_eq,
      isLivePerson_loadedPerson nowIso deviceId hids hperson hnow (hdeletedAt person hperson)]
    constructor
    · rintro ⟨⟨hlive, hhead⟩, hloadedKey⟩
      rw [(nameKey_loadedPerson nowIso deviceId hids hperson (isLivePerson_iff.1 hlive).1).2] at hloadedKey
      rw [← hloadedKey, hhead]
    · intro hhead
      obtain ⟨-, hlive, hpersonKey⟩ := mem_namesakes.1 (hmem person hhead)
      rw [(nameKey_loadedPerson nowIso deviceId hids hperson (isLivePerson_iff.1 hlive).1).2, hpersonKey]
      exact ⟨⟨hlive, hhead⟩, rfl⟩
  have hsplit : namesakes key (normalizePeopleForLoad people tasks nowIso deviceId uuid).people =
      ((namesakes key people).head?.toList).map (loadedPerson nowIso deviceId people) := by
    rw [hpeople, namesakes, List.filter_append, ← namesakes, ← namesakes, hnew, List.append_nil, namesakes,
      List.filter_map, ← hfiltered]
    rfl
  rw [hsplit]
  cases hhead : (namesakes key people).head? with
  | none =>
    rw [List.head?_eq_none_iff] at hhead
    rw [hhead]
    rfl
  | some person =>
    obtain ⟨hperson, hlive, hpersonKey⟩ := mem_namesakes.1 (hmem person hhead)
    rcases loadedPerson_live nowIso deviceId hids hperson hlive with ⟨-, kept, hkept, heq⟩ | ⟨hne, -⟩
    · rw [hpersonKey] at hkept
      rw [hkept]
      simp [heq]
    · rw [hpersonKey] at hne
      exact absurd hhead hne

/-! ### A kept person against its tombstone -/

def mergeTime (now : Int) (time : String) : Int := (parseMergeTimestamp (some (.str time)) now).safe

/-- The first of some namesakes, with the latest time and the greatest revision of all, wins against its tombstone from
another device. -/
def Outlasts (now : Int) (nowIso otherNowIso : String) (people : List Person) : Prop :=
  ∃ first, people.head? = some first ∧
    let live := mergeTime now (newestUpdate nowIso people)
    let gone := mergeTime now otherNowIso
    asStr? (firstWriter people) = some syncBackupRestoreRevBy ∧ gone ≤ live ∨
      |gone - live| ≤ deleteVsLiveAmbiguousWindowMs ∧ (∃ person ∈ people, (nextRevision first.rev : Rat) ≤ revOf person) ∨
      deleteVsLiveAmbiguousWindowMs < live - gone

/-- What a merge compares of the kept person of some namesakes. -/
structure IsKept (nowIso : String) (people : List Person) (live : Person) : Prop where
  deletedAt : isDeleted live = false
  updatedAt : live.updatedAt = some (.str (newestUpdate nowIso people))
  revBy : live.revBy = firstWriter people
  rev : ∀ n : Nat, 0 < n → ((n : Rat) ≤ revOf live ↔ ∃ person ∈ people, (n : Rat) ≤ revOf person)

/-- What a merge compares of its tombstone. -/
structure IsRetired (nowIso : String) (first gone : Person) : Prop where
  deletedAt : gone.deletedAt = some (.str nowIso)
  updatedAt : gone.updatedAt = some (.str nowIso)
  rev : gone.rev = some (.num (nextRevision first.rev))

omit [Runtime] in
theorem IsRetired.isDeleted {first gone : Person} {nowIso : String} (h : IsRetired nowIso first gone)
    (hnow : nowIso ≠ "") : isDeleted gone = true := by
  have hdeleted : Sync.isDeleted gone = truthy gone.deletedAt := rfl
  rw [hdeleted, h.deletedAt]
  simpa [Json.truthy] using hnow

theorem IsRetired.operationTime {first gone : Person} {nowIso : String} (h : IsRetired nowIso first gone)
    (hnow : nowIso ≠ "") (now : Int) : resolveOperationTime now gone = mergeTime now nowIso := by
  have hupdated : (updatedTime now gone).safe = mergeTime now nowIso := by
    rw [updatedTime, mergeTime, ← h.updatedAt]
    rfl
  have hdeletedAt : MergeableEntity.deletedAt gone = some (.str nowIso) := h.deletedAt
  rw [resolveOperationTime, if_pos (h.isDeleted hnow), hdeletedAt, hupdated, dateTime_some]
  cases htime : Runtime.dateTime (.str nowIso) with
  | none => rfl
  | some time =>
    have hparsed : mergeTime now nowIso = if time > now + clockSkewThresholdMs then now else time := by
      have hparse : dateParse nowIso = some time := htime
      rw [mergeTime, parseMergeTimestamp]
      simp only [asStr?_some, Json.asStr?, hparse]
      split_ifs <;> rfl
    dsimp only
    rw [hparsed, max_self]

section
variable {now : Int} {nowIso otherNowIso : String} {people : List Person} {first live gone : Person}

theorem IsKept.operationTime (h : IsKept nowIso people live) :
    resolveOperationTime now live = mergeTime now (newestUpdate nowIso people) := by
  rw [resolveOperationTime, if_neg (by simp [h.deletedAt]), updatedTime, mergeTime, ← h.updatedAt]
  rfl

theorem IsKept.restoresOver (h : IsKept nowIso people live) (hgone : IsRetired otherNowIso first gone)
    (hother : otherNowIso ≠ "") :
    RestoresOver now live gone ↔ asStr? (firstWriter people) = some syncBackupRestoreRevBy ∧
      mergeTime now otherNowIso ≤ mergeTime now (newestUpdate nowIso people) := by
  have hrevBy : MergeableEntity.revBy live = firstWriter people := h.revBy
  rw [RestoresOver, h.operationTime, hgone.operationTime hother, isBackupRestoreLiveCandidate, h.deletedAt, revByOf,
    hrevBy]
  apply and_congr_left
  intro _
  cases asStr? (firstWriter people) with
  | none => simp [syncBackupRestoreRevBy]
  | some writer => simp

omit [Runtime] in
/-- A tombstone has a revision. -/
theorem IsRetired.revOf (hgone : IsRetired otherNowIso first gone) :
    Sync.revOf gone = ((nextRevision first.rev : Nat) : Rat) ∧ 0 < nextRevision first.rev := by
  have hrev : MergeableEntity.rev gone = some (.num (nextRevision first.rev)) := hgone.rev
  refine ⟨by rw [Sync.revOf, hrev]; rfl, ?_⟩
  unfold nextRevision bumpRevision
  have hmax : 0 < maxSyncRevision := by decide
  split_ifs <;> omega

omit [Runtime] in
theorem IsRetired.hasRevision (hgone : IsRetired otherNowIso first gone) (live : Person) :
    hasRevision live gone = true ∧ Sync.hasRevision gone live = true := by
  obtain ⟨hrev, hpos⟩ := hgone.revOf
  have hgonePos : 0 < Sync.revOf gone := by
    rw [hrev]
    exact_mod_cast hpos
  simp [Sync.hasRevision, hgonePos]

omit [Runtime] in
theorem IsKept.differs (h : IsKept nowIso people live) (hgone : IsRetired otherNowIso first gone)
    (hother : otherNowIso ≠ "") : isDeleted live ≠ isDeleted gone := by
  rw [h.deletedAt, hgone.isDeleted hother]
  simp

theorem outlasts_of_outranks (h : IsKept nowIso people live) (hgone : IsRetired otherNowIso first gone)
    (hother : otherNowIso ≠ "") (hfirst : people.head? = some first) (hwins : OutranksAcross now live gone) :
    Outlasts now nowIso otherNowIso people := by
  refine ⟨first, hfirst, ?_⟩
  dsimp only
  rcases hwins with hrestored | ⟨-, hrest⟩
  · exact .inl ((h.restoresOver hgone hother).1 hrestored)
  right
  obtain ⟨hgoneRev, hnext⟩ := hgone.revOf
  rw [operationDiff, h.operationTime, hgone.operationTime hother, if_pos (hgone.hasRevision live).1] at hrest
  split_ifs at hrest with hwindow
  · left
    refine ⟨hwindow, (h.rev _ hnext).1 ?_⟩
    rw [← hgoneRev]
    rcases hrest with hlt | ⟨heq, -⟩
    · exact le_of_lt hlt
    · exact le_of_eq heq.symm
  · right
    rw [abs_le, not_and_or] at hwindow
    unfold deleteVsLiveAmbiguousWindowMs at hwindow ⊢
    omega

theorem not_outlasts_of_outranked (h : IsKept nowIso people live) (hgone : IsRetired otherNowIso first gone)
    (hother : otherNowIso ≠ "") (hfirst : people.head? = some first) (hloses : OutranksAcross now gone live) :
    ¬Outlasts now nowIso otherNowIso people := by
  rintro ⟨first', hfirst', houtlasts⟩
  obtain rfl := Option.some.inj (hfirst.symm.trans hfirst')
  obtain ⟨-, hrevision⟩ := hgone.hasRevision live
  obtain ⟨hgoneRev, hnext⟩ := hgone.revOf
  -- a tombstone is no restored version
  have hnot : ¬RestoresOver now gone live := by
    rintro ⟨hcandidate, -⟩
    rw [isBackupRestoreLiveCandidate, hgone.isDeleted hother] at hcandidate
    cases hcandidate
  obtain ⟨hnotRestored, hrest⟩ := hloses.resolve_left hnot
  rw [h.restoresOver hgone hother] at hnotRestored
  rw [operationDiff, h.operationTime, hgone.operationTime hother, if_pos hrevision, hgoneRev, h.deletedAt] at hrest
  dsimp only at houtlasts
  rcases houtlasts with hrestored | ⟨hwindow, hrev⟩ | hlater
  · exact hnotRestored hrestored
  · rw [abs_sub_comm, if_pos hwindow] at hrest
    have hle := (h.rev _ hnext).2 hrev
    rcases hrest with hlt | ⟨-, hfalse⟩
    · exact absurd hle (not_le.2 hlt)
    · cases hfalse
  · have hwindow : ¬|mergeTime now (newestUpdate nowIso people) - mergeTime now otherNowIso| ≤
        deleteVsLiveAmbiguousWindowMs := by
      intro hle
      exact absurd (le_trans (le_abs_self _) hle) (not_le.2 hlater)
    rw [if_neg hwindow] at hrest
    unfold deleteVsLiveAmbiguousWindowMs at hlater
    omega

/-- **A kept person wins against its tombstone where it outlasts it.** -/
theorem winnerSide_kept_iff (now : Int) (h : IsKept nowIso people live) (hgone : IsRetired otherNowIso first gone)
    (hother : otherNowIso ≠ "") (hfirst : people.head? = some first) :
    (winnerSide now live gone = .localItem ↔ Outlasts now nowIso otherNowIso people) ∧
      (winnerSide now gone live = .incomingItem ↔ Outlasts now nowIso otherNowIso people) := by
  have hdiffers := h.differs hgone hother
  have hside : winnerSide now live gone = (resolveDeleteVsLiveWinner now live gone).winner := by
    rw [winnerSide]
    exact if_pos hdiffers
  have hside' : winnerSide now gone live = (resolveDeleteVsLiveWinner now live gone).winner.swap := by
    rw [← resolveDeleteVsLiveWinner_swap now hdiffers, winnerSide]
    exact if_pos hdiffers.symm
  cases hwinner : (resolveDeleteVsLiveWinner now live gone).winner with
  | localItem =>
    have houtlasts := outlasts_of_outranks h hgone hother hfirst (resolveDeleteVsLiveWinner_localItem hdiffers hwinner)
    rw [hside, hside', hwinner]
    exact ⟨⟨fun _ => houtlasts, fun _ => rfl⟩, ⟨fun _ => houtlasts, fun _ => rfl⟩⟩
  | incomingItem =>
    have hswap : (resolveDeleteVsLiveWinner now gone live).winner = .localItem := by
      rw [resolveDeleteVsLiveWinner_swap now hdiffers, hwinner]
      rfl
    have hnot := not_outlasts_of_outranked h hgone hother hfirst
      (resolveDeleteVsLiveWinner_localItem hdiffers.symm hswap)
    rw [hside, hside', hwinner]
    refine ⟨⟨?_, fun hyes => absurd hyes hnot⟩, ⟨?_, fun hyes => absurd hyes hnot⟩⟩
    · intro hlocal
      cases hlocal
    · intro hincoming
      cases hincoming

end

end

end Mindwtr.Store
