import Mindwtr.Store.PeopleKept

/-!
# People of one name on two devices

Each device lets the person of a name that stands first in its list keep it. Where the two lists differ in that, each
device has a tombstone for the person the other one kept, and the name is lost in the merge unless one of the kept
people outlasts its tombstone (`names_kept_iff`).
-/

namespace Mindwtr.Store

open Mindwtr.Js Mindwtr.Sync MergeableEntity

section
variable [Runtime]

/-! ### The merged list -/

/-- The merge repairs nothing else of a person. -/
def SameBesidesCreatedAt (person q : Person) : Prop := ∃ createdAt, q = { person with createdAt }

omit [Runtime] in
theorem SameBesidesCreatedAt.trans {a b c : Person} (h : SameBesidesCreatedAt a b) (h' : SameBesidesCreatedAt b c) :
    SameBesidesCreatedAt a c := by
  obtain ⟨createdAt, rfl⟩ := h
  obtain ⟨createdAt', rfl⟩ := h'
  exact ⟨createdAt', rfl⟩

theorem normalizeTimestamps_same (person : Person) (counterpart : Option Person) :
    SameBesidesCreatedAt person (normalizeTimestamps person counterpart) := by
  unfold normalizeTimestamps
  split_ifs
  · exact ⟨_, rfl⟩
  · exact ⟨person.createdAt, rfl⟩

section
variable {opts : MergeOptions Person} {L I : List Person} {out : MergeState Person}

theorem mergedPair_same (hopts : opts.mergeConflict = none) {l i q : Person} (h : mergedPair opts l i = .ok q) :
    ∃ l' i', SameBesidesCreatedAt l l' ∧ SameBesidesCreatedAt i i' ∧
      SameBesidesCreatedAt ((winnerSide opts.now l' i').pick l' i') q := by
  refine ⟨_, _, normalizeTimestamps_same l (some i), normalizeTimestamps_same i (some l), ?_⟩
  rw [mergedPair, repairedPair] at h
  dsimp only at h
  rw [resolvedPair, hopts] at h
  obtain rfl := Except.ok.inj h
  exact normalizeTimestamps_same _ none

omit [Runtime] in
theorem keepsId_of_none (hopts : opts.mergeConflict = none) : opts.KeepsId := by
  intro f hf
  rw [hopts] at hf
  cases hf

/-- The merged version of a person both sides have. -/
theorem merged_of_pair (hopts : opts.mergeConflict = none) (hL : (L.map (·.id)).Nodup) (hI : (I.map (·.id)).Nodup)
    (hmerge : mergeEntitiesWithStats opts L I = .ok out) {l i : Person} (hl : l ∈ L) (hi : i ∈ I) (hid : l.id = i.id) :
    ∃ q ∈ out.merged, q.id = l.id ∧ ∃ l' i', SameBesidesCreatedAt l l' ∧ SameBesidesCreatedAt i i' ∧
      SameBesidesCreatedAt ((winnerSide opts.now l' i').pick l' i') q := by
  have hlocal : (JsMap.ofItems entityId L).get? l.id = some l := (JsMap.get?_ofItems hL).2 ⟨hl, rfl⟩
  have hincoming : (JsMap.ofItems entityId I).get? l.id = some i := (JsMap.get?_ofItems hI).2 ⟨hi, hid.symm⟩
  have hvisited : l.id ∈ out.merged.map entityId := by
    rw [map_entityId_merged (keepsId_of_none hopts) hmerge, visitedKeys, JsMap.mem_unionKeys,
      ← JsMap.get?_isSome_iff, hlocal]
    exact .inl rfl
  obtain ⟨q, hq, hqid⟩ := List.mem_map.1 hvisited
  obtain ⟨key, hentry⟩ := entryOf_of_mem hmerge hq
  have hkey : key = l.id := (entityId_of_entryOf (keepsId_of_none hopts) hentry).symm.trans hqid
  rw [hkey, EntryOf, mergedEntry, hlocal, hincoming] at hentry
  obtain ⟨r, hr, hrq⟩ := map_eq_ok hentry
  obtain rfl := Option.some.inj hrq
  exact ⟨_, hq, hqid, mergedPair_same hopts hr⟩

/-- Each merged person is a version of one of the sides. -/
theorem merged_from (hopts : opts.mergeConflict = none) (hmerge : mergeEntitiesWithStats opts L I = .ok out)
    {q : Person} (hq : q ∈ out.merged) : ∃ x, (x ∈ L ∨ x ∈ I) ∧ SameBesidesCreatedAt x q := by
  obtain ⟨key, hentry⟩ := entryOf_of_mem hmerge hq
  unfold EntryOf mergedEntry at hentry
  split at hentry
  · cases hentry
  · rename_i l hl _
    obtain rfl := Option.some.inj (Except.ok.inj hentry)
    exact ⟨l, .inl (JsMap.mem_of_get?_ofItems hl).1, normalizeTimestamps_same l none⟩
  · rename_i i _ hi
    obtain rfl := Option.some.inj (Except.ok.inj hentry)
    exact ⟨i, .inr (JsMap.mem_of_get?_ofItems hi).1, normalizeTimestamps_same i none⟩
  · rename_i l i hl hi
    obtain ⟨r, hr, hrq⟩ := map_eq_ok hentry
    obtain rfl := Option.some.inj hrq
    obtain ⟨l', i', hl', hi', hpick⟩ := mergedPair_same hopts hr
    cases hside : winnerSide opts.now l' i' with
    | localItem =>
      rw [hside] at hpick
      exact ⟨l, .inl (JsMap.mem_of_get?_ofItems hl).1, hl'.trans hpick⟩
    | incomingItem =>
      rw [hside] at hpick
      exact ⟨i, .inr (JsMap.mem_of_get?_ofItems hi).1, hi'.trans hpick⟩

theorem merged_ids_nodup (hopts : opts.mergeConflict = none) (hmerge : mergeEntitiesWithStats opts L I = .ok out) :
    (out.merged.map (·.id)).Nodup := by
  have hids : out.merged.map (·.id) = visitedKeys L I := map_entityId_merged (keepsId_of_none hopts) hmerge
  rw [hids]
  exact JsMap.nodup_unionKeys _ _

end

/-! ### Two devices -/

theorem SameBesidesCreatedAt.live {person q : Person} (h : SameBesidesCreatedAt person q) :
    isLivePerson q = isLivePerson person ∧ nameKey q = nameKey person ∧ hasNote q = hasNote person ∧
      hasReferenceLink q = hasReferenceLink person := by
  obtain ⟨createdAt, rfl⟩ := h
  exact ⟨rfl, rfl, rfl, rfl⟩

omit [Runtime] in
theorem SameBesidesCreatedAt.named {person q : Person} (h : SameBesidesCreatedAt person q) : isNamed q = isNamed person := by
  obtain ⟨createdAt, rfl⟩ := h
  rfl

theorem isKept_of_same {nowIso key : String} {people : List Person} {kept live : Person}
    (hkept : keptPerson nowIso (namesakes key people) = some kept) (hsame : SameBesidesCreatedAt kept live) :
    IsKept nowIso (namesakes key people) live := by
  obtain ⟨first, hfirst, hdeleted, -⟩ := keptPerson_frame hkept
  obtain ⟨-, hlive, -⟩ := mem_namesakes.1 (List.mem_of_mem_head? hfirst)
  have hupdated := keptPerson_updatedAt hkept
  have hrevBy := keptPerson_revBy hkept
  have hrev := fun (n : Nat) (hn : 0 < n) => le_revOf_keptPerson hn hkept
  obtain ⟨createdAt, rfl⟩ := hsame
  refine ⟨?_, hupdated, hrevBy, hrev⟩
  exact (congrArg truthy hdeleted).trans (isLivePerson_iff.1 hlive).2

omit [Runtime] in
theorem isRetired_of_same {nowIso : String} {deviceId : Option String} {person gone : Person}
    (hsame : SameBesidesCreatedAt (retiredPerson (normalizedPerson person nowIso) nowIso deviceId) gone) :
    IsRetired nowIso person gone := by
  obtain ⟨createdAt, rfl⟩ := hsame
  exact ⟨rfl, rfl, rfl⟩

omit [Runtime] in
theorem IsRetired.not_live {nowIso : String} {first gone : Person} (h : IsRetired nowIso first gone) (hnow : nowIso ≠ "") :
    isLivePerson gone = false := by
  have hdeleted : truthy gone.deletedAt = true := h.isDeleted hnow
  rw [isLivePerson, hdeleted]
  simp

/-- A version of a person that was live: kept or retired. -/
theorem version_of_loaded {nowIso key : String} {deviceId : Option String} {people : List Person} {person version : Person}
    (hids : (people.map (·.id)).Nodup) (hnow : nowIso ≠ "")
    (hdeletedAt : ∀ person ∈ people, isNullish person.deletedAt = true ∨ truthy person.deletedAt = true)
    (hperson : person ∈ namesakes key people)
    (hsame : SameBesidesCreatedAt (loadedPerson nowIso deviceId people person) version) :
    ((namesakes key people).head? = some person ∧ isLivePerson version = true ∧ nameKey version = key ∧
        IsKept nowIso (namesakes key people) version) ∨
      ((namesakes key people).head? ≠ some person ∧ IsRetired nowIso person version) := by
  obtain ⟨hmem, hlive, hkey⟩ := mem_namesakes.1 hperson
  rcases loadedPerson_live nowIso deviceId hids hmem hlive with ⟨hhead, kept, hkept, hloaded⟩ | ⟨hne, hloaded⟩
  · left
    have hloadedLive := (isLivePerson_loadedPerson nowIso deviceId hids hmem hnow (hdeletedAt person hmem)).2
      ⟨hlive, hhead⟩
    have hloadedKey := (nameKey_loadedPerson nowIso deviceId hids hmem (isLivePerson_iff.1 hlive).1).2
    obtain ⟨hsameLive, hsameKey, -⟩ := hsame.live
    rw [hkey] at hhead hkept
    rw [hloaded] at hsame
    exact ⟨hhead, hsameLive.trans hloadedLive, (hsameKey.trans hloadedKey).trans hkey, isKept_of_same hkept hsame⟩
  · right
    rw [hkey] at hne
    rw [hloaded] at hsame
    exact ⟨hne, isRetired_of_same hsame⟩

omit [Runtime] in
theorem id_of_kept {nowIso : String} {people : List Person} {kept q : Person} (hkept : keptPerson nowIso people = some kept)
    (hsame : SameBesidesCreatedAt kept q) : ∃ first, people.head? = some first ∧ q.id = first.id := by
  cases people with
  | nil => cases hkept
  | cons first others =>
    have hid := keptPerson_id hkept
    obtain ⟨createdAt, rfl⟩ := hsame
    exact ⟨first, rfl, hid⟩

/-- The same people in two orders, each deleted at some time or not at all. -/
structure ArePeopleOfTwo (peopleA peopleB : List Person) : Prop where
  perm : peopleA.Perm peopleB
  ids : (peopleA.map (·.id)).Nodup
  deletedAt : ∀ person ∈ peopleA, isNullish person.deletedAt = true ∨ truthy person.deletedAt = true
  rev : ∀ person ∈ peopleA, ∀ rev, person.rev = some rev → (asNum? rev).isSome

omit [Runtime] in
theorem ArePeopleOfTwo.swap {peopleA peopleB : List Person} (h : ArePeopleOfTwo peopleA peopleB) :
    ArePeopleOfTwo peopleB peopleA where
  perm := h.perm.symm
  ids := (h.perm.map _).nodup_iff.1 h.ids
  deletedAt person hperson := h.deletedAt person (h.perm.mem_iff.2 hperson)
  rev person hperson := h.rev person (h.perm.mem_iff.2 hperson)

theorem namesakes_perm {peopleA peopleB : List Person} (h : peopleA.Perm peopleB) (key : String) :
    (namesakes key peopleA).Perm (namesakes key peopleB) :=
  h.filter _

/-- Two devices leave a live person of the name to each other. -/
def NameSurvives (now : Int) (nowA nowB : String) (peopleA peopleB : List Person) (key : String) : Prop :=
  (namesakes key peopleA).head? = (namesakes key peopleB).head? ∨
    Outlasts now nowA nowB (namesakes key peopleA) ∨ Outlasts now nowB nowA (namesakes key peopleB)

section
variable {opts : MergeOptions Person} {out : MergeState Person} {peopleA peopleB : List Person}
  {tasksA tasksB : List Task} {nowA nowB : String} {deviceA deviceB : Option String} {uuidA uuidB : Nat → String}
  {key : String}

/-- What is merged of the two devices. -/
structure IsMergeOfTwo (opts : MergeOptions Person) (peopleA peopleB : List Person) (tasksA tasksB : List Task)
    (nowA nowB : String) (deviceA deviceB : Option String) (uuidA uuidB : Nat → String) (out : MergeState Person) :
    Prop where
  people : ArePeopleOfTwo peopleA peopleB
  timeA : nowA ≠ ""
  timeB : nowB ≠ ""
  freshA : IsFresh uuidA peopleA
  freshB : IsFresh uuidB peopleB
  noConflict : opts.mergeConflict = none
  merged : mergeEntitiesWithStats opts (normalizePeopleForLoad peopleA tasksA nowA deviceA uuidA).people
    (normalizePeopleForLoad peopleB tasksB nowB deviceB uuidB).people = .ok out

namespace IsMergeOfTwo

variable (h : IsMergeOfTwo opts peopleA peopleB tasksA tasksB nowA nowB deviceA deviceB uuidA uuidB out)
include h

theorem namesakes_left (hkey : namesakes key peopleA ≠ []) :
    namesakes key (normalizePeopleForLoad peopleA tasksA nowA deviceA uuidA).people =
      (keptPerson nowA (namesakes key peopleA)).toList := by
  obtain ⟨person, hperson⟩ := List.exists_mem_of_ne_nil _ hkey
  obtain ⟨hmem, hlive, hpersonKey⟩ := mem_namesakes.1 hperson
  exact namesakes_load nowA deviceA tasksA h.people.ids h.freshA h.timeA h.people.deletedAt
    ⟨person, hmem, (isLivePerson_iff.1 hlive).1, hpersonKey⟩

theorem namesakes_right (hkey : namesakes key peopleB ≠ []) :
    namesakes key (normalizePeopleForLoad peopleB tasksB nowB deviceB uuidB).people =
      (keptPerson nowB (namesakes key peopleB)).toList := by
  obtain ⟨person, hperson⟩ := List.exists_mem_of_ne_nil _ hkey
  obtain ⟨hmem, hlive, hpersonKey⟩ := mem_namesakes.1 hperson
  exact namesakes_load nowB deviceB tasksB h.people.swap.ids h.freshB h.timeB h.people.swap.deletedAt
    ⟨person, hmem, (isLivePerson_iff.1 hlive).1, hpersonKey⟩

/-- The merged version of a person of both devices. -/
theorem merged_person {person : Person} (hperson : person ∈ peopleA) :
    ∃ q ∈ out.merged, q.id = person.id ∧ ∃ l i, SameBesidesCreatedAt (loadedPerson nowA deviceA peopleA person) l ∧
      SameBesidesCreatedAt (loadedPerson nowB deviceB peopleB person) i ∧
      SameBesidesCreatedAt ((winnerSide opts.now l i).pick l i) q := by
  obtain ⟨derivedA, hA, hidsA, -⟩ := normalizePeopleForLoad_eq nowA deviceA tasksA h.people.ids h.freshA
  obtain ⟨derivedB, hB, hidsB, -⟩ := normalizePeopleForLoad_eq nowB deviceB tasksB h.people.swap.ids h.freshB
  have hl : loadedPerson nowA deviceA peopleA person ∈
      (normalizePeopleForLoad peopleA tasksA nowA deviceA uuidA).people := by
    rw [hA]
    exact List.mem_append_left _ (List.mem_map_of_mem hperson)
  have hi : loadedPerson nowB deviceB peopleB person ∈
      (normalizePeopleForLoad peopleB tasksB nowB deviceB uuidB).people := by
    rw [hB]
    exact List.mem_append_left _ (List.mem_map_of_mem (h.people.perm.mem_iff.1 hperson))
  have hmerged := merged_of_pair h.noConflict hidsA hidsB h.merged hl hi (by simp)
  rwa [loadedPerson_id] at hmerged

theorem ids_nodup : (out.merged.map (·.id)).Nodup := merged_ids_nodup h.noConflict h.merged

/-- Which people of a name are live in the merge. -/
theorem live_iff {person : Person} (hperson : person ∈ namesakes key peopleA) :
    (∃ q ∈ namesakes key out.merged, q.id = person.id) ↔
      ((namesakes key peopleA).head? = some person ∧
        ((namesakes key peopleB).head? = some person ∨ Outlasts opts.now nowA nowB (namesakes key peopleA))) ∨
      ((namesakes key peopleB).head? = some person ∧
        ((namesakes key peopleA).head? = some person ∨ Outlasts opts.now nowB nowA (namesakes key peopleB))) := by
  have hpersonB := (namesakes_perm h.people.perm key).mem_iff.1 hperson
  obtain ⟨q, hq, hid, l, i, hl, hi, hpick⟩ := h.merged_person (mem_namesakes.1 hperson).1
  have hunique : (∃ q ∈ namesakes key out.merged, q.id = person.id) ↔ isLivePerson q = true ∧ nameKey q = key := by
    constructor
    · rintro ⟨q', hq', hid'⟩
      obtain ⟨hmem', hlive', hkey'⟩ := mem_namesakes.1 hq'
      obtain rfl : q' = q := List.inj_on_of_nodup_map h.ids_nodup hmem' hq (hid'.trans hid.symm)
      exact ⟨hlive', hkey'⟩
    · rintro ⟨hqLive, hqKey⟩
      exact ⟨q, mem_namesakes.2 ⟨hq, hqLive, hqKey⟩, hid⟩
  obtain ⟨hsameLive, hsameKey, -⟩ := hpick.live
  rw [hunique, hsameLive, hsameKey]
  rcases version_of_loaded h.people.ids h.timeA h.people.deletedAt hperson hl with
    ⟨hheadA, hliveL, hkeyL, hkeptL⟩ | ⟨hheadA, hgoneL⟩
  · rcases version_of_loaded h.people.swap.ids h.timeB h.people.swap.deletedAt hpersonB hi with
      ⟨hheadB, hliveI, hkeyI, -⟩ | ⟨hheadB, hgoneI⟩
    · -- live on both devices
      have hpicked : isLivePerson ((winnerSide opts.now l i).pick l i) = true ∧
          nameKey ((winnerSide opts.now l i).pick l i) = key := by
        cases winnerSide opts.now l i
        · exact ⟨hliveL, hkeyL⟩
        · exact ⟨hliveI, hkeyI⟩
      simp [hpicked, hheadA, hheadB]
    · have hside := (winnerSide_kept_iff opts.now hkeptL hgoneI h.timeB hheadA).1
      have hnot := hgoneI.not_live h.timeB
      simp only [hheadA, hheadB, true_and, false_or, false_and, or_false, ← hside]
      cases winnerSide opts.now l i with
      | localItem => simp [Side.pick, hliveL, hkeyL]
      | incomingItem => simp [Side.pick, hnot]
  · have hnot := hgoneL.not_live h.timeA
    rcases version_of_loaded h.people.swap.ids h.timeB h.people.swap.deletedAt hpersonB hi with
      ⟨hheadB, hliveI, hkeyI, hkeptI⟩ | ⟨hheadB, hgoneI⟩
    · have hside := (winnerSide_kept_iff opts.now hkeptI hgoneL h.timeA hheadB).2
      simp only [hheadA, hheadB, true_and, false_or, false_and, ← hside]
      cases winnerSide opts.now l i with
      | localItem => simp [Side.pick, hnot]
      | incomingItem => simp [Side.pick, hliveI, hkeyI]
    · -- retired on both devices
      have hnotI := hgoneI.not_live h.timeB
      simp only [hheadA, hheadB, false_and, or_false]
      cases winnerSide opts.now l i with
      | localItem => simp [Side.pick, hnot]
      | incomingItem => simp [Side.pick, hnotI]

/-- A live person of the merge is the kept one of a device. -/
theorem kept_of_merged (hkey : namesakes key peopleA ≠ []) {q : Person} (hq : q ∈ namesakes key out.merged) :
    (∃ kept, keptPerson nowA (namesakes key peopleA) = some kept ∧ SameBesidesCreatedAt kept q) ∨
      ∃ kept, keptPerson nowB (namesakes key peopleB) = some kept ∧ SameBesidesCreatedAt kept q := by
  have hkeyB : namesakes key peopleB ≠ [] := by
    intro hnil
    apply hkey
    have hperm := namesakes_perm h.people.perm key
    rw [hnil] at hperm
    exact List.perm_nil.1 hperm
  obtain ⟨hmem, hlive, hqKey⟩ := mem_namesakes.1 hq
  obtain ⟨x, hx, hsame⟩ := merged_from h.noConflict h.merged hmem
  obtain ⟨hsameLive, hsameKey, -⟩ := hsame.live
  rcases hx with hx | hx
  · left
    have hname : x ∈ namesakes key (normalizePeopleForLoad peopleA tasksA nowA deviceA uuidA).people :=
      mem_namesakes.2 ⟨hx, hsameLive ▸ hlive, hsameKey ▸ hqKey⟩
    rw [h.namesakes_left hkey, Option.mem_toList] at hname
    exact ⟨x, hname, hsame⟩
  · right
    have hname : x ∈ namesakes key (normalizePeopleForLoad peopleB tasksB nowB deviceB uuidB).people :=
      mem_namesakes.2 ⟨hx, hsameLive ▸ hlive, hsameKey ▸ hqKey⟩
    rw [h.namesakes_right hkeyB, Option.mem_toList] at hname
    exact ⟨x, hname, hsame⟩

theorem survives_iff (hkey : namesakes key peopleA ≠ []) :
    namesakes key out.merged ≠ [] ↔ NameSurvives opts.now nowA nowB peopleA peopleB key := by
  have hmemB : ∀ person, (namesakes key peopleB).head? = some person → person ∈ namesakes key peopleA :=
    fun person hhead => (namesakes_perm h.people.perm key).mem_iff.2 (List.mem_of_mem_head? hhead)
  have hsurvives : ∀ person ∈ namesakes key peopleA, (∃ q ∈ namesakes key out.merged, q.id = person.id) →
      NameSurvives opts.now nowA nowB peopleA peopleB key := by
    intro person hperson hexists
    rcases (h.live_iff hperson).1 hexists with ⟨hheadA, hheadB | houtlasts⟩ | ⟨hheadB, hheadA | houtlasts⟩
    · exact .inl (hheadA.trans hheadB.symm)
    · exact .inr (.inl houtlasts)
    · exact .inl (hheadA.trans hheadB.symm)
    · exact .inr (.inr houtlasts)
  constructor
  · intro hne
    obtain ⟨q, hq⟩ := List.exists_mem_of_ne_nil _ hne
    rcases h.kept_of_merged hkey hq with ⟨kept, hkept, hsame⟩ | ⟨kept, hkept, hsame⟩
    · obtain ⟨first, hfirst, hid⟩ := id_of_kept hkept hsame
      exact hsurvives first (List.mem_of_mem_head? hfirst) ⟨q, hq, hid⟩
    · obtain ⟨first, hfirst, hid⟩ := id_of_kept hkept hsame
      exact hsurvives first (hmemB first hfirst) ⟨q, hq, hid⟩
  · have hlives : ∀ person ∈ namesakes key peopleA,
        (∃ q ∈ namesakes key out.merged, q.id = person.id) → namesakes key out.merged ≠ [] := by
      rintro person - ⟨q, hq, -⟩ hnil
      rw [hnil] at hq
      cases hq
    rintro (hsame | houtlasts | houtlasts)
    · obtain ⟨first, hfirst⟩ : ∃ first, (namesakes key peopleA).head? = some first :=
        ⟨_, List.head?_eq_some_head hkey⟩
      have hmem := List.mem_of_mem_head? hfirst
      exact hlives first hmem ((h.live_iff hmem).2 (.inl ⟨hfirst, .inl (hsame ▸ hfirst)⟩))
    · obtain ⟨first, hfirst, -⟩ := id houtlasts
      have hmem := List.mem_of_mem_head? hfirst
      exact hlives first hmem ((h.live_iff hmem).2 (.inl ⟨hfirst, .inr houtlasts⟩))
    · obtain ⟨first, hfirst, -⟩ := id houtlasts
      exact hlives first (hmemB first hfirst) ((h.live_iff (hmemB first hfirst)).2 (.inr ⟨hfirst, .inr houtlasts⟩))

/-- In the merge each person is deleted at some time or not at all. -/
theorem merged_deletedAt {q : Person} (hq : q ∈ out.merged) :
    isNullish q.deletedAt = true ∨ truthy q.deletedAt = true := by
  obtain ⟨derivedA, hA, -, hderivedA⟩ := normalizePeopleForLoad_eq nowA deviceA tasksA h.people.ids h.freshA
  obtain ⟨derivedB, hB, -, hderivedB⟩ := normalizePeopleForLoad_eq nowB deviceB tasksB h.people.swap.ids h.freshB
  obtain ⟨x, hx, createdAt, rfl⟩ := merged_from h.noConflict h.merged hq
  rcases hx with hx | hx
  · rw [hA, List.mem_append] at hx
    rcases hx with hx | hx
    · obtain ⟨person, hperson, rfl⟩ := List.mem_map.1 hx
      exact deletedAt_loadedPerson h.people.ids h.timeA h.people.deletedAt hperson
    · exact .inl (by simp [(hderivedA x hx).1, isNullish])
  · rw [hB, List.mem_append] at hx
    rcases hx with hx | hx
    · obtain ⟨person, hperson, rfl⟩ := List.mem_map.1 hx
      exact deletedAt_loadedPerson h.people.swap.ids h.timeB h.people.swap.deletedAt hperson
    · exact .inl (by simp [(hderivedB x hx).1, isNullish])

/-- The name of a live person is not forgotten. -/
theorem merged_name (hkey : namesakes key peopleA ≠ []) :
    ∃ q ∈ out.merged, isNamed q = true ∧ nameKey q = key := by
  obtain ⟨person, hperson⟩ := List.exists_mem_of_ne_nil _ hkey
  obtain ⟨hmem, hlive, hpersonKey⟩ := mem_namesakes.1 hperson
  have hnamed := (isLivePerson_iff.1 hlive).1
  have hA := nameKey_loadedPerson nowA deviceA h.people.ids hmem hnamed
  have hB := nameKey_loadedPerson nowB deviceB h.people.swap.ids (h.people.perm.mem_iff.1 hmem) hnamed
  obtain ⟨q, hq, -, l, i, hl, hi, hpick⟩ := h.merged_person hmem
  refine ⟨q, hq, ?_⟩
  cases hside : winnerSide opts.now l i with
  | localItem =>
    rw [hside] at hpick
    exact ⟨(hl.trans hpick).named.trans hA.1, ((hl.trans hpick).live.2.1.trans hA.2).trans hpersonKey⟩
  | incomingItem =>
    rw [hside] at hpick
    exact ⟨(hi.trans hpick).named.trans hB.1, ((hi.trans hpick).live.2.1.trans hB.2).trans hpersonKey⟩

/-- A live person of the merge has a text that a person of the name had. -/
theorem merged_text {field : Person → Option Json} {clean : Option Json → Option Json} (hclean : IsCleanup clean)
    (hnormalized : ∀ person nowIso, field (normalizedPerson person nowIso) = clean (field person))
    (hmerged : ∀ kept person, field (mergedPerson kept person) = coalesce (field kept) (field person))
    (hsame : ∀ person q, SameBesidesCreatedAt person q → field q = field person)
    (hsome : ∃ person ∈ namesakes key peopleA, (clean (field person)).isSome) {q : Person}
    (hq : q ∈ namesakes key out.merged) : (clean (field q)).isSome := by
  obtain ⟨person, hperson, htext⟩ := hsome
  rcases h.kept_of_merged (List.ne_nil_of_mem hperson) hq with ⟨kept, hkept, hkeptSame⟩ | ⟨kept, hkept, hkeptSame⟩
  · rw [hsame kept q hkeptSame]
    exact keptPerson_text hclean (fun person => hnormalized person nowA) hmerged hkept ⟨person, hperson, htext⟩
  · rw [hsame kept q hkeptSame]
    have hpersonB := (namesakes_perm h.people.perm key).mem_iff.1 hperson
    exact keptPerson_text hclean (fun person => hnormalized person nowB) hmerged hkept ⟨person, hpersonB, htext⟩

end IsMergeOfTwo

/-! ### After the next load -/

/-- A name has one live person, with a note and a link where it had them. -/
structure KeepsName (key : String) (before after : List Person) : Prop where
  one : (namesakes key after).length = 1
  note : (∃ person ∈ namesakes key before, hasNote person = true) → ∀ person ∈ namesakes key after, hasNote person = true
  referenceLink : (∃ person ∈ namesakes key before, hasReferenceLink person = true) →
    ∀ person ∈ namesakes key after, hasReferenceLink person = true

variable {tasks : List Task} {nowIso : String} {deviceId : Option String} {uuid : Nat → String}

theorem keepsName_iff (h : IsMergeOfTwo opts peopleA peopleB tasksA tasksB nowA nowB deviceA deviceB uuidA uuidB out)
    (hfresh : IsFresh uuid out.merged) (hnow : nowIso ≠ "") (hkey : namesakes key peopleA ≠ []) :
    KeepsName key peopleA (normalizePeopleForLoad out.merged tasks nowIso deviceId uuid).people ↔
      NameSurvives opts.now nowA nowB peopleA peopleB key := by
  have hload := namesakes_load nowIso deviceId tasks h.ids_nodup hfresh hnow
    (fun person hperson => h.merged_deletedAt hperson) (h.merged_name hkey)
  rw [← h.survives_iff hkey]
  cases hkept : keptPerson nowIso (namesakes key out.merged) with
  | none =>
    rw [keptPerson_eq_none] at hkept
    rw [hkept] at hload
    constructor
    · intro hkeeps
      have hone := hkeeps.one
      rw [hload] at hone
      cases hone
    · exact fun hne => absurd hkept hne
  | some kept =>
    have hne : namesakes key out.merged ≠ [] := by
      intro hnil
      rw [hnil] at hkept
      cases hkept
    rw [hkept] at hload
    obtain ⟨q, hq⟩ := List.exists_mem_of_ne_nil _ hne
    refine ⟨fun _ => hne, fun _ => ⟨by rw [hload]; rfl, ?_, ?_⟩⟩
    · intro hnote person hperson
      obtain rfl : person = kept := by simpa [hload] using hperson
      apply keptPerson_text isCleanup_note (fun person => rfl) (fun kept person => rfl) hkept
      refine ⟨q, hq, h.merged_text isCleanup_note (fun person nowIso => rfl) (fun kept person => rfl) ?_ hnote hq⟩
      rintro person q ⟨createdAt, rfl⟩
      rfl
    · intro hlink person hperson
      obtain rfl : person = kept := by simpa [hload] using hperson
      apply keptPerson_text isCleanup_referenceLink (fun person => rfl) (fun kept person => rfl) hkept
      refine ⟨q, hq, h.merged_text isCleanup_referenceLink (fun person nowIso => rfl) (fun kept person => rfl) ?_ hlink hq⟩
      rintro person q ⟨createdAt, rfl⟩
      rfl

/-- **Every name keeps its person** where both devices list the same live person of the name first, or where the one
that a device keeps outlasts the tombstone the other device made of it. -/
theorem names_kept_iff (h : IsMergeOfTwo opts peopleA peopleB tasksA tasksB nowA nowB deviceA deviceB uuidA uuidB out)
    (hfresh : IsFresh uuid out.merged) (hnow : nowIso ≠ "") :
    (∀ key, namesakes key peopleA ≠ [] →
        KeepsName key peopleA (normalizePeopleForLoad out.merged tasks nowIso deviceId uuid).people) ↔
      ∀ key, namesakes key peopleA ≠ [] → NameSurvives opts.now nowA nowB peopleA peopleB key :=
  forall_congr' fun _ => forall_congr' fun hkey => keepsName_iff h hfresh hnow hkey

end

end

/-! ### Two people called Anna -/

attribute [local instance] isoRuntime

def annaOf (id : String) (note : Option Json) : Person where
  id := id
  name := some (.str "Anna")
  note := note
  rev := some (.num 1)
  revBy := some (.str "phone")
  createdAt := some (.str "2026-02-01T09:00:00.000Z")
  updatedAt := some (.str "2026-02-01T09:00:00.000Z")

def annas : List Person := [annaOf "p1" (some (.str "From work")), annaOf "p2" none]

def askAnna : Task where
  id := "t1"
  title := some (.str "Ask Anna")
  assignedTo := some (.str "Anna")

def mergeAt : MergeOptions Person where
  nowIso := some "2026-03-02T09:00:00.000Z"
  dateNow := 0

def newIds (n : Nat) : String := String.ofList (List.replicate (n + 3) 'u')

theorem newIds_fresh {people : List Person} (h : ∀ person ∈ people, person.id.length = 2) : IsFresh newIds people := by
  constructor
  · intro m n hsame
    have hlength := congrArg String.length hsame
    simpa [newIds] using hlength
  · intro n person hperson hsame
    have hlength := congrArg String.length hsame
    rw [h person hperson] at hlength
    simp [newIds] at hlength

/-- The phone and the desktop load, one of them with the people in this order, and merge. -/
def mergeLoaded (peopleB : List Person) : Except JsError (MergeState Person) :=
  mergeEntitiesWithStats mergeAt
    (normalizePeopleForLoad annas [askAnna] "2026-03-01T09:00:00.000Z" (some "phone") newIds).people
    (normalizePeopleForLoad peopleB [askAnna] "2026-03-01T10:00:00.000Z" (some "desktop") newIds).people

theorem isMergeOfTwo_annas {peopleB : List Person} {out : MergeState Person} (hperm : annas.Perm peopleB)
    (hmerge : mergeLoaded peopleB = .ok out) :
    IsMergeOfTwo mergeAt annas peopleB [askAnna] [askAnna] "2026-03-01T09:00:00.000Z" "2026-03-01T10:00:00.000Z"
      (some "phone") (some "desktop") newIds newIds out where
  people := {
    perm := hperm
    ids := by decide
    deletedAt := by decide
    rev := by
      intro person hperson rev hrev
      have hone : ∀ person ∈ annas, person.rev = some (.num 1) := by decide
      rw [hone person hperson] at hrev
      rw [← Option.some.inj hrev]
      rfl }
  timeA := by decide
  timeB := by decide
  freshA := newIds_fresh (by decide)
  freshB := newIds_fresh fun person hperson =>
    (by decide : ∀ person ∈ annas, person.id.length = 2) person (hperm.mem_iff.2 hperson)
  noConflict := rfl
  merged := hmerge

/-- Each device keeps the Anna that the other one retires, and no task brings her back. -/
theorem annas_lost : ∃ out,
    IsMergeOfTwo mergeAt annas annas.reverse [askAnna] [askAnna] "2026-03-01T09:00:00.000Z" "2026-03-01T10:00:00.000Z"
      (some "phone") (some "desktop") newIds newIds out ∧
    IsFresh newIds out.merged ∧ namesakes "anna" annas ≠ [] ∧
    ¬KeepsName "anna" annas
      (normalizePeopleForLoad out.merged [askAnna] "2026-03-03T09:00:00.000Z" (some "phone") newIds).people := by
  have hrun : (mergeLoaded annas.reverse).toOption.map (fun out => (out.merged.map fun person => person.id.length,
      (namesakes "anna" (normalizePeopleForLoad out.merged [askAnna] "2026-03-03T09:00:00.000Z" (some "phone")
        newIds).people).length)) = some ([2, 2], 0) := by
    decide +kernel
  cases hmerge : mergeLoaded annas.reverse with
  | error e =>
    rw [hmerge] at hrun
    cases hrun
  | ok out =>
    rw [hmerge] at hrun
    obtain ⟨hids, hnone⟩ := Prod.mk.inj (Option.some.inj hrun)
    refine ⟨out, isMergeOfTwo_annas (List.reverse_perm annas).symm hmerge, newIds_fresh ?_, by decide +kernel, ?_⟩
    · intro person hperson
      have hmem : person.id.length ∈ out.merged.map fun person => person.id.length := List.mem_map_of_mem hperson
      rw [hids] at hmem
      simpa using hmem
    · intro hkeeps
      have hone := hkeeps.one
      rw [hnone] at hone
      cases hone

/-- In one order both devices keep the same Anna. -/
theorem names_kept_iff_same_order : ∃ out, mergeLoaded annas = .ok out ∧
    ((∀ key, namesakes key annas ≠ [] → KeepsName key annas
        (normalizePeopleForLoad out.merged [askAnna] "2026-03-03T09:00:00.000Z" (some "phone") newIds).people) ↔
      ∀ key, namesakes key annas ≠ [] → NameSurvives mergeAt.now "2026-03-01T09:00:00.000Z" "2026-03-01T10:00:00.000Z"
        annas annas key) := by
  have hrun : (mergeLoaded annas).toOption.map (fun out => out.merged.map fun person => person.id.length) =
      some [2, 2] := by
    decide +kernel
  cases hmerge : mergeLoaded annas with
  | error e =>
    rw [hmerge] at hrun
    cases hrun
  | ok out =>
    rw [hmerge] at hrun
    have hids : (out.merged.map fun person => person.id.length) = [2, 2] := Option.some.inj hrun
    refine ⟨out, rfl, names_kept_iff (isMergeOfTwo_annas (List.Perm.refl annas) hmerge) (newIds_fresh ?_) (by decide)⟩
    intro person hperson
    have hmem : person.id.length ∈ out.merged.map fun person => person.id.length := List.mem_map_of_mem hperson
    rw [hids] at hmem
    simpa using hmem

end Mindwtr.Store
