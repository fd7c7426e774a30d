import Mindwtr.Sync.Normalize

/-!
# Loading people

`normalizePeopleForLoad` of `people.ts`. The people are read in the order of the list: the first live one of a name
keeps it, and the others of the name lend it their notes and become tombstones. A name that tasks are assigned to
gets a person of its own unless one had it, live or deleted. The loop is read as a map over the list
(`loadPeople_eq`): what becomes of a person depends on its namesakes.
-/

namespace Mindwtr.Store

open Mindwtr.Js Mindwtr.Sync

section
variable [Runtime]

def getBlankPersonTombstoneName (id : String) : String :=
  "__mindwtr_deleted_person__:" ++ if trim id = "" then "invalid-id" else trim id

def getPersonNameKey (value : Option Json) : String := Runtime.toLowerCase (normalizePersonName value)

/-- `...(deviceId ? { revBy: deviceId } : {})`. -/
def stampedBy (deviceId : Option String) (revBy : Option Json) : Option Json :=
  match deviceId.filter (· != "") with
  | some deviceId => some (.str deviceId)
  | none => revBy

/-- When the person was created, else updated, else loaded. -/
def personCreatedAt (person : Person) (nowIso : String) : Option Json :=
  ((trimmedOrAbsent person.createdAt).or (trimmedOrAbsent person.updatedAt)).or (some (.str nowIso))

def normalizedPerson (person : Person) (nowIso : String) : Person :=
  { person with
    name := some (.str (normalizePersonName person.name))
    note := normalizePersonNote person.note
    referenceLink := normalizePersonReferenceLink person.referenceLink
    createdAt := personCreatedAt person nowIso
    updatedAt := (trimmedOrAbsent person.updatedAt).or (personCreatedAt person nowIso) }

def normalizedBlankPerson (person : Person) (nowIso : String) (deviceId : Option String) : Person :=
  { person with
    name := some (.str (getBlankPersonTombstoneName person.id))
    note := normalizePersonNote person.note
    referenceLink := normalizePersonReferenceLink person.referenceLink
    createdAt := personCreatedAt person nowIso
    updatedAt := some (.str nowIso)
    deletedAt := coalesce person.deletedAt (some (.str nowIso))
    rev := some (.num (nextRevision person.rev))
    revBy := stampedBy deviceId person.revBy }

/-- A namesake of another person as a tombstone. -/
def retiredPerson (person : Person) (nowIso : String) (deviceId : Option String) : Person :=
  { person with
    deletedAt := some (.str nowIso)
    updatedAt := some (.str nowIso)
    rev := some (.num (nextRevision person.rev))
    revBy := stampedBy deviceId person.revBy }

/-- `Math.max(a ?? 0, b ?? 0) || a || b` of revisions that are numbers where they are there. -/
def greaterRevision (a b : Option Json) : Option Json :=
  let greater := max ((asNum? a).getD 0) ((asNum? b).getD 0)
  if greater ≠ 0 then some (.num greater) else if truthy a then a else b

/-- `a >= b` of two strings. -/
def laterText (a b : Option Json) : Option Json :=
  if jsLt ((asStr? a).getD "") ((asStr? b).getD "") then b else a

/-- The person that keeps the name, with what a namesake lends it. -/
def mergedPerson (existing namesake : Person) : Person :=
  { existing with
    note := coalesce existing.note namesake.note
    referenceLink := coalesce existing.referenceLink namesake.referenceLink
    updatedAt := laterText existing.updatedAt namesake.updatedAt
    rev := greaterRevision existing.rev namesake.rev
    revBy := coalesce existing.revBy namesake.revBy }

def replacePerson (people : List Person) (person : Person) : List Person :=
  match people.findIdx? fun item => item.id == person.id with
  | some index => people.set index person
  | none => people

/-- What the loop keeps. -/
structure PeopleState where
  peopleByName : String → Option Person := fun _ => none
  deletedNames : List String := []
  normalizedPeople : List Person := []
  didChange : Bool := false

def PeopleState.push (state : PeopleState) (person : Person) : PeopleState :=
  { state with normalizedPeople := state.normalizedPeople ++ [person] }

/-- A property that the load repaired. -/
def wasRepaired (person : Person) (nowIso : String) : Bool :=
  let normalized := normalizedPerson person nowIso
  !(strictEq normalized.name person.name && strictEq normalized.note person.note &&
    strictEq normalized.referenceLink person.referenceLink && strictEq normalized.createdAt person.createdAt &&
    strictEq normalized.updatedAt person.updatedAt)

def loadPerson (nowIso : String) (deviceId : Option String) (state : PeopleState) (person : Person) : PeopleState :=
  if normalizePersonName person.name = "" then
    { state.push (normalizedBlankPerson person nowIso deviceId) with didChange := true }
  else
    let key := getPersonNameKey (some (.str (normalizePersonName person.name)))
    let normalized := normalizedPerson person nowIso
    let state := { state with didChange := state.didChange || wasRepaired person nowIso }
    if truthy person.deletedAt then
      { state.push normalized with deletedNames := key :: state.deletedNames }
    else
      match state.peopleByName key with
      | some existing =>
        let merged := mergedPerson existing normalized
        { state with
          peopleByName := Function.update state.peopleByName key (some merged)
          normalizedPeople :=
            replacePerson state.normalizedPeople merged ++ [retiredPerson normalized nowIso deviceId]
          didChange := true }
      | none => { state.push normalized with peopleByName := Function.update state.peopleByName key (some normalized) }

/-- The person of a name that a task is assigned to. -/
def derivedPerson (id name nowIso : String) (deviceId : Option String) : Person where
  id := id
  name := some (.str name)
  createdAt := some (.str nowIso)
  updatedAt := some (.str nowIso)
  rev := some (.num 1)
  revBy := stampedBy deviceId none

/-- `uuid n` is the `n`th id that `generateUUID` hands out during the load. -/
def loadAssignee (nowIso : String) (deviceId : Option String) (uuid : Nat → String) (acc : PeopleState × Nat)
    (task : Task) : PeopleState × Nat :=
  let (state, used) := acc
  let name := normalizePersonName task.assignedTo
  let key := getPersonNameKey (some (.str name))
  if truthy task.deletedAt ∨ name = "" ∨ (state.peopleByName key).isSome ∨ key ∈ state.deletedNames then acc
  else
    let person := derivedPerson (uuid used) name nowIso deviceId
    ({ state.push person with
        peopleByName := Function.update state.peopleByName key (some person)
        didChange := true }, used + 1)

structure NormalizePeopleForLoadResult where
  people : List Person
  didChange : Bool

def normalizePeopleForLoad (people : List Person) (tasks : List Task) (nowIso : String) (deviceId : Option String)
    (uuid : Nat → String) : NormalizePeopleForLoadResult :=
  let state := people.foldl (loadPerson nowIso deviceId) {}
  let (state, _) := tasks.foldl (loadAssignee nowIso deviceId uuid) (state, 0)
  { people := state.normalizedPeople, didChange := state.didChange }

end

/-! ### Names and notes are normalized once -/

theorem collapseWhiteSpace_cons {c : Char} (hc : isTrimmed c = false) (l : List Char) :
    collapseWhiteSpace (c :: l) = c :: collapseWhiteSpace l := by
  cases l with
  | nil => simp [collapseWhiteSpace, hc]
  | cons d l => simp [collapseWhiteSpace, hc]

theorem collapseWhiteSpace_idem (l : List Char) : collapseWhiteSpace (collapseWhiteSpace l) = collapseWhiteSpace l := by
  induction l with
  | nil => rfl
  | cons c l ih =>
    by_cases hc : isTrimmed c = true
    · cases l with
      | nil => simp [collapseWhiteSpace, hc]
      | cons d l =>
        by_cases hd : isTrimmed d = true
        · rw [collapseWhiteSpace, if_pos hc, if_pos hd, ih]
        · rw [Bool.not_eq_true] at hd
          rw [collapseWhiteSpace_cons hd, collapseWhiteSpace_cons hd] at ih
          rw [collapseWhiteSpace, if_pos hc, if_neg (by simp [hd]), collapseWhiteSpace_cons hd, collapseWhiteSpace]
          simp only [hd, Bool.false_eq_true, if_false]
          rw [collapseWhiteSpace_cons hd, ih]
          simp
    · rw [Bool.not_eq_true] at hc
      rw [collapseWhiteSpace_cons hc, collapseWhiteSpace_cons hc, ih]

theorem collapseWhiteSpace_append {c : Char} (hc : isTrimmed c = false) (l : List Char) :
    collapseWhiteSpace (l ++ [c]) = collapseWhiteSpace l ++ [c] := by
  induction l with
  | nil => simp [collapseWhiteSpace, hc]
  | cons a l ih =>
    by_cases ha : isTrimmed a = true
    · cases l with
      | nil => simp [collapseWhiteSpace, ha, hc]
      | cons d l =>
        rw [List.cons_append] at ih
        rw [List.cons_append, List.cons_append, collapseWhiteSpace, collapseWhiteSpace, ih]
        split_ifs <;> rfl
    · rw [Bool.not_eq_true] at ha
      rw [List.cons_append, collapseWhiteSpace_cons ha, collapseWhiteSpace_cons ha, ih, List.cons_append]

/-- A trimmed text neither starts nor ends with white space. -/
theorem trim_ends (s : String) : (trim s).toList = [] ∨
    ∃ c l, (trim s).toList = c :: l ∧ isTrimmed c = false ∧
      ∃ d l', (trim s).toList = l' ++ [d] ∧ isTrimmed d = false := by
  have hleft : ∀ h : (trim s).toList ≠ [], isTrimmed ((trim s).toList.head h) = false := by
    intro h
    have htrim : (trim s).toList = (s.toList.dropWhile isTrimmed).rdropWhile isTrimmed := by
      rw [trim, String.toList_ofList]
    have hprefix := List.rdropWhile_prefix isTrimmed (l := s.toList.dropWhile isTrimmed)
    rw [← htrim] at hprefix
    obtain ⟨rest, hrest⟩ := hprefix
    have hne : s.toList.dropWhile isTrimmed ≠ [] := by
      intro hnil
      rw [hnil] at hrest
      exact h (List.append_eq_nil_iff.1 hrest).1
    have hhead := List.head_dropWhile_not isTrimmed hne
    have hsame : (trim s).toList.head h = (s.toList.dropWhile isTrimmed).head hne := by
      simp only [← hrest, List.head_append_of_ne_nil h]
    rw [hsame, hhead]
  have hright : ∀ h : (trim s).toList ≠ [], isTrimmed ((trim s).toList.getLast h) = false := by
    intro h
    have hfixed : (trim s).toList.rdropWhile isTrimmed = (trim s).toList := by
      rw [trim, String.toList_ofList, List.rdropWhile_idempotent]
    simpa using List.rdropWhile_eq_self_iff.1 hfixed h
  by_cases hnil : (trim s).toList = []
  · exact .inl hnil
  · right
    refine ⟨_, _, (List.cons_head_tail hnil).symm, hleft hnil, _, _, (List.dropLast_append_getLast hnil).symm,
      hright hnil⟩

theorem trim_eq_self {l : List Char} {c d : Char} {tail init : List Char} (hhead : l = c :: tail)
    (hc : isTrimmed c = false) (hlast : l = init ++ [d]) (hd : isTrimmed d = false) : trim (String.ofList l) = String.ofList l := by
  have hdrop : l.dropWhile isTrimmed = l := by
    rw [hhead, List.dropWhile_cons_of_neg (by simp [hc])]
  have hrdrop : l.rdropWhile isTrimmed = l := by
    rw [hlast, List.rdropWhile_concat_neg _ _ _ (by simp [hd])]
  rw [trim, String.toList_ofList, hdrop, hrdrop]

theorem normalizePersonName_idem (value : Option Json) :
    normalizePersonName (some (.str (normalizePersonName value))) = normalizePersonName value := by
  cases hvalue : asStr? value with
  | none =>
    simp only [normalizePersonName, hvalue]
    rfl
  | some s =>
    have hname : normalizePersonName value = String.ofList (collapseWhiteSpace (trim s).toList) := by
      simp only [normalizePersonName, hvalue]
    rw [hname]
    change String.ofList (collapseWhiteSpace (trim (String.ofList (collapseWhiteSpace (trim s).toList))).toList) = _
    rcases trim_ends s with hnil | ⟨c, tail, hhead, hc, d, init, hlast, hd⟩
    · rw [hnil]
      rfl
    · have hhead' : collapseWhiteSpace (trim s).toList = c :: collapseWhiteSpace tail := by
        rw [hhead, collapseWhiteSpace_cons hc]
      have hlast' : collapseWhiteSpace (trim s).toList = collapseWhiteSpace init ++ [d] := by
        rw [hlast, collapseWhiteSpace_append hd]
      rw [trim_eq_self hhead' hc hlast' hd, String.toList_ofList, collapseWhiteSpace_idem]

theorem trimmedOrAbsent_idem (value : Option Json) : trimmedOrAbsent (trimmedOrAbsent value) = trimmedOrAbsent value := by
  cases hvalue : asStr? value with
  | none => simp [trimmedOrAbsent, hvalue]
  | some s =>
    by_cases hblank : isBlank s = true
    · simp [trimmedOrAbsent, hvalue, hblank]
    · rw [Bool.not_eq_true] at hblank
      have htrimmed : trimmedOrAbsent value = some (.str (trim s)) := by simp [trimmedOrAbsent, hvalue, hblank]
      rw [htrimmed]
      simp [trimmedOrAbsent, trim_ne_of_isBlank hblank, trim_trim]

/-! ### The loop as a map -/

/-- The first of some namesakes, with what the others lend it. -/
def keptPerson (nowIso : String) : List Person → Option Person
  | [] => none
  | first :: others =>
    some (others.foldl (fun kept person => mergedPerson kept (normalizedPerson person nowIso))
      (normalizedPerson first nowIso))

@[simp] theorem mergedPerson_id (kept person : Person) : (mergedPerson kept person).id = kept.id := rfl
@[simp] theorem normalizedPerson_id (person : Person) (nowIso : String) : (normalizedPerson person nowIso).id = person.id :=
  rfl

theorem keptPerson_id {nowIso : String} {first kept : Person} {others : List Person}
    (h : keptPerson nowIso (first :: others) = some kept) : kept.id = first.id := by
  obtain rfl := Option.some.inj h
  induction others using List.reverseRecOn with
  | nil => rfl
  | append_singleton others person ih => rw [List.foldl_append, List.foldl_cons, List.foldl_nil, mergedPerson_id, ih rfl]

theorem keptPerson_append {nowIso : String} {people : List Person} {kept : Person}
    (h : keptPerson nowIso people = some kept) (person : Person) :
    keptPerson nowIso (people ++ [person]) = some (mergedPerson kept (normalizedPerson person nowIso)) := by
  cases people with
  | nil => cases h
  | cons first others =>
    obtain rfl := Option.some.inj h
    rw [List.cons_append, keptPerson, List.foldl_append, List.foldl_cons, List.foldl_nil]

theorem keptPerson_eq_none {nowIso : String} {people : List Person} :
    keptPerson nowIso people = none ↔ people = [] := by
  cases people with
  | nil => simp [keptPerson]
  | cons first others => simp [keptPerson]

theorem nodup_append_person {people : List Person} {person : Person} (h : ((people ++ [person]).map (·.id)).Nodup) :
    (people.map (·.id)).Nodup ∧ ∀ q ∈ people, q.id ≠ person.id := by
  rw [List.map_append, List.map_singleton, List.nodup_append] at h
  refine ⟨h.1, fun q hq => ?_⟩
  exact h.2.2 q.id (List.mem_map_of_mem hq) person.id (by simp)

/-- In a list of distinct ids one person is replaced. -/
theorem replacePerson_eq {people : List Person} (hids : (people.map (·.id)).Nodup) {kept : Person}
    (hkept : kept.id ∈ people.map (·.id)) :
    replacePerson people kept = people.map fun person => if person.id = kept.id then kept else person := by
  induction people with
  | nil => simp at hkept
  | cons first people ih =>
    obtain ⟨hfirst, hrest⟩ := List.nodup_cons.1 hids
    rw [replacePerson, List.findIdx?_cons]
    by_cases hid : first.id = kept.id
    · have hothers : people.map (fun person => if person.id = kept.id then kept else person) = people := by
        refine (List.map_congr_left fun person hperson => ?_).trans (List.map_id' _)
        rw [if_neg]
        intro hsame
        have hmem : person.id ∈ people.map (·.id) := List.mem_map_of_mem hperson
        exact hfirst (by simpa [hid, hsame] using hmem)
      rw [List.map_cons, if_pos hid, hothers]
      simp [hid]
    · have hmem : kept.id ∈ people.map (·.id) := by
        rw [List.map_cons, List.mem_cons] at hkept
        exact hkept.resolve_left fun heq => hid heq.symm
      have htail := ih hrest hmem
      rw [replacePerson] at htail
      rw [List.map_cons, if_neg hid, ← htail]
      cases people.findIdx? fun item => item.id == kept.id <;> simp [hid]

section
variable [Runtime]

theorem getPersonNameKey_normalized (value : Option Json) :
    getPersonNameKey (some (.str (normalizePersonName value))) = getPersonNameKey value := by
  rw [getPersonNameKey, normalizePersonName_idem, getPersonNameKey]

def nameKey (person : Person) : String := getPersonNameKey person.name

def isNamed (person : Person) : Bool := normalizePersonName person.name != ""

/-- A person that is shown under a name. -/
def isLivePerson (person : Person) : Bool := isNamed person && !truthy person.deletedAt

/-- The live people of a name, in the order of the list. -/
def namesakes (key : String) (people : List Person) : List Person :=
  people.filter fun person => isLivePerson person && nameKey person == key

/-- What becomes of a person of the list. -/
def loadedPerson (nowIso : String) (deviceId : Option String) (people : List Person) (person : Person) : Person :=
  if !isNamed person then normalizedBlankPerson person nowIso deviceId
  else if truthy person.deletedAt then normalizedPerson person nowIso
  else
    match keptPerson nowIso (namesakes (nameKey person) people) with
    | some kept => if kept.id = person.id then kept else retiredPerson (normalizedPerson person nowIso) nowIso deviceId
    | none => normalizedPerson person nowIso

theorem namesakes_append (key : String) (people : List Person) (person : Person) :
    namesakes key (people ++ [person]) =
      namesakes key people ++ if isLivePerson person && nameKey person == key then [person] else [] := by
  rw [namesakes, List.filter_append, List.filter_singleton, namesakes]
  cases isLivePerson person && nameKey person == key <;> rfl

theorem namesakes_append_of_ne {key : String} {people : List Person} {person : Person} (h : ¬key = nameKey person) :
    namesakes key (people ++ [person]) = namesakes key people := by
  simp [namesakes_append, Ne.symm h]

theorem mem_namesakes {key : String} {people : List Person} {person : Person} :
    person ∈ namesakes key people ↔ person ∈ people ∧ isLivePerson person = true ∧ nameKey person = key := by
  simp [namesakes]

@[simp] theorem loadedPerson_id (nowIso : String) (deviceId : Option String) (people : List Person) (person : Person) :
    (loadedPerson nowIso deviceId people person).id = person.id := by
  unfold loadedPerson
  split_ifs
  · rfl
  · rfl
  · split
    · split_ifs with hid
      · exact hid
      · rfl
    · rfl

/-- What the loop knows once it has read some people. -/
structure HasLoaded (nowIso : String) (deviceId : Option String) (people : List Person) (state : PeopleState) : Prop where
  peopleByName : ∀ key, state.peopleByName key = keptPerson nowIso (namesakes key people)
  deletedNames : ∀ key, key ∈ state.deletedNames ↔
    ∃ person ∈ people, isNamed person = true ∧ truthy person.deletedAt = true ∧ nameKey person = key
  normalizedPeople : state.normalizedPeople = people.map (loadedPerson nowIso deviceId people)

variable {nowIso : String} {deviceId : Option String} {people : List Person} {person : Person} {state : PeopleState}

/-- A person that shares no name with the live ones before it changes nothing of them. -/
theorem map_loadedPerson_append (h : ∀ q ∈ people, isLivePerson person = true → isLivePerson q = true →
    nameKey person ≠ nameKey q) :
    (people ++ [person]).map (loadedPerson nowIso deviceId (people ++ [person])) =
      people.map (loadedPerson nowIso deviceId people) ++ [loadedPerson nowIso deviceId (people ++ [person]) person] := by
  rw [List.map_append, List.map_singleton]
  congr 1
  apply List.map_congr_left
  intro q hq
  unfold loadedPerson
  by_cases hnamed : isNamed q = true
  · by_cases hdeleted : truthy q.deletedAt = true
    · simp [hnamed, hdeleted]
    · have hsame : namesakes (nameKey q) (people ++ [person]) = namesakes (nameKey q) people := by
        rw [namesakes_append]
        have hno : (isLivePerson person && nameKey person == nameKey q) = false := by
          rw [Bool.and_eq_false_iff, or_iff_not_imp_left, Bool.not_eq_false]
          intro hlive
          have hne := h q hq hlive (by simp [isLivePerson, hnamed, hdeleted])
          simpa using hne
        rw [hno]
        simp
      rw [hsame]
  · simp [hnamed]

namespace HasLoaded

variable (h : HasLoaded nowIso deviceId people state)
include h

theorem deletedNames_append (hkept : (isNamed person && truthy person.deletedAt) = false) (key : String) :
    key ∈ state.deletedNames ↔
      ∃ q ∈ people ++ [person], isNamed q = true ∧ truthy q.deletedAt = true ∧ nameKey q = key := by
  rw [h.deletedNames]
  constructor
  · rintro ⟨q, hq, hrest⟩
    exact ⟨q, List.mem_append_left _ hq, hrest⟩
  · rintro ⟨q, hq, hnamed, hdeleted, hkey⟩
    rcases List.mem_append.1 hq with hq | hq
    · exact ⟨q, hq, hnamed, hdeleted, hkey⟩
    · obtain rfl := List.mem_singleton.1 hq
      rw [hnamed, hdeleted] at hkept
      cases hkept

theorem peopleByName_append (hlive : isLivePerson person = false) (key : String) :
    state.peopleByName key = keptPerson nowIso (namesakes key (people ++ [person])) := by
  rw [namesakes_append, hlive, h.peopleByName]
  simp

/-- A person without a name. -/
theorem load_blank (hnamed : isNamed person = false) :
    HasLoaded nowIso deviceId (people ++ [person]) (loadPerson nowIso deviceId state person) := by
  have hname : normalizePersonName person.name = "" := by simpa [isNamed] using hnamed
  have hlive : isLivePerson person = false := by simp [isLivePerson, hnamed]
  rw [loadPerson, if_pos hname]
  refine ⟨h.peopleByName_append hlive, h.deletedNames_append (by simp [hnamed]), ?_⟩
  rw [map_loadedPerson_append (by simp [hlive])]
  have hloaded : loadedPerson nowIso deviceId (people ++ [person]) person =
      normalizedBlankPerson person nowIso deviceId := by
    simp [loadedPerson, hnamed]
  rw [hloaded, ← h.normalizedPeople]
  rfl

/-- A deleted person. -/
theorem load_deleted (hnamed : isNamed person = true) (hdeleted : truthy person.deletedAt = true) :
    HasLoaded nowIso deviceId (people ++ [person]) (loadPerson nowIso deviceId state person) := by
  have hname : normalizePersonName person.name ≠ "" := by simpa [isNamed] using hnamed
  have hlive : isLivePerson person = false := by simp [isLivePerson, hdeleted]
  have hstep : loadPerson nowIso deviceId state person =
      { state with
        deletedNames := nameKey person :: state.deletedNames
        normalizedPeople := state.normalizedPeople ++ [normalizedPerson person nowIso]
        didChange := state.didChange || wasRepaired person nowIso } := by
    rw [loadPerson, if_neg hname]
    simp only [hdeleted, if_true, getPersonNameKey_normalized]
    rfl
  rw [hstep]
  refine ⟨h.peopleByName_append hlive, ?_, ?_⟩
  · intro key
    simp only [List.mem_cons, List.mem_append, List.not_mem_nil, or_false, h.deletedNames]
    constructor
    · rintro (rfl | ⟨q, hq, hrest⟩)
      · exact ⟨person, .inr rfl, hnamed, hdeleted, rfl⟩
      · exact ⟨q, .inl hq, hrest⟩
    · rintro ⟨q, hq | rfl, hrest⟩
      · exact .inr ⟨q, hq, hrest⟩
      · exact .inl hrest.2.2.symm
  · rw [map_loadedPerson_append (by simp [hlive]), ← h.normalizedPeople]
    simp [loadedPerson, hnamed, hdeleted]

/-- The first live person of a name. -/
theorem load_first (hlive : isLivePerson person = true) (hnone : state.peopleByName (nameKey person) = none) :
    HasLoaded nowIso deviceId (people ++ [person]) (loadPerson nowIso deviceId state person) := by
  obtain ⟨hnamed, hdeleted⟩ : isNamed person = true ∧ truthy person.deletedAt = false := by
    simpa [isLivePerson] using hlive
  have hname : normalizePersonName person.name ≠ "" := by simpa [isNamed] using hnamed
  have hstep : loadPerson nowIso deviceId state person =
      { state with
        peopleByName := Function.update state.peopleByName (nameKey person) (some (normalizedPerson person nowIso))
        normalizedPeople := state.normalizedPeople ++ [normalizedPerson person nowIso]
        didChange := state.didChange || wasRepaired person nowIso } := by
    have hnone' : state.peopleByName (getPersonNameKey person.name) = none := hnone
    rw [loadPerson, if_neg hname]
    simp only [hdeleted, Bool.false_eq_true, if_false, getPersonNameKey_normalized, hnone']
    rfl
  have hempty : namesakes (nameKey person) people = [] := by
    rw [h.peopleByName] at hnone
    exact keptPerson_eq_none.1 hnone
  have hnamesakes : namesakes (nameKey person) (people ++ [person]) = [person] := by
    rw [namesakes_append, hempty]
    simp [hlive]
  rw [hstep]
  refine ⟨?_, h.deletedNames_append (by simp [hdeleted]), ?_⟩
  · intro key
    by_cases hkey : key = nameKey person
    · rw [hkey, hnamesakes]
      exact Function.update_self _ _ _
    · rw [namesakes_append_of_ne hkey]
      simp [Function.update_of_ne hkey, h.peopleByName]
  · rw [map_loadedPerson_append, ← h.normalizedPeople]
    · simp [loadedPerson, hnamed, hdeleted, hnamesakes, keptPerson]
    · intro q hq _ hliveq heq
      have hmem : q ∈ namesakes (nameKey person) people := mem_namesakes.2 ⟨hq, hliveq, heq.symm⟩
      rw [hempty] at hmem
      cases hmem

/-- A further live person of a name. -/
theorem load_namesake (hids : ((people ++ [person]).map (·.id)).Nodup) (hlive : isLivePerson person = true)
    {kept : Person} (hkept : state.peopleByName (nameKey person) = some kept) :
    HasLoaded nowIso deviceId (people ++ [person]) (loadPerson nowIso deviceId state person) := by
  obtain ⟨hnamed, hdeleted⟩ : isNamed person = true ∧ truthy person.deletedAt = false := by
    simpa [isLivePerson] using hlive
  have hname : normalizePersonName person.name ≠ "" := by simpa [isNamed] using hnamed
  let merged := mergedPerson kept (normalizedPerson person nowIso)
  have hstep : loadPerson nowIso deviceId state person =
      { state with
        peopleByName := Function.update state.peopleByName (nameKey person) (some merged)
        normalizedPeople := replacePerson state.normalizedPeople merged ++
          [retiredPerson (normalizedPerson person nowIso) nowIso deviceId]
        didChange := true } := by
    have hkept' : state.peopleByName (getPersonNameKey person.name) = some kept := hkept
    rw [loadPerson, if_neg hname]
    simp only [hdeleted, Bool.false_eq_true, if_false, getPersonNameKey_normalized, hkept']
    rfl
  obtain ⟨hnodup, hfresh⟩ := nodup_append_person hids
  have hbefore : keptPerson nowIso (namesakes (nameKey person) people) = some kept := by
    rw [← h.peopleByName, hkept]
  have hnamesakes : namesakes (nameKey person) (people ++ [person]) = namesakes (nameKey person) people ++ [person] := by
    rw [namesakes_append]
    simp [hlive]
  have hafter : keptPerson nowIso (namesakes (nameKey person) (people ++ [person])) = some merged := by
    rw [hnamesakes, keptPerson_append hbefore]
  obtain ⟨first, hfirst, hid⟩ : ∃ first ∈ namesakes (nameKey person) people, kept.id = first.id := by
    cases hlist : namesakes (nameKey person) people with
    | nil =>
      rw [hlist] at hbefore
      cases hbefore
    | cons first others =>
      rw [hlist] at hbefore
      exact ⟨first, by simp, keptPerson_id hbefore⟩
  obtain ⟨hfirstMem, hfirstLive, hfirstKey⟩ := mem_namesakes.1 hfirst
  obtain ⟨hfirstNamed, hfirstDeleted⟩ : isNamed first = true ∧ truthy first.deletedAt = false := by
    simpa [isLivePerson] using hfirstLive
  have hmergedId : merged.id = first.id := hid
  -- of the people before, only the one that keeps the name changes
  have hothers : ∀ q ∈ people, (if q.id = merged.id then merged else loadedPerson nowIso deviceId people q) =
      loadedPerson nowIso deviceId (people ++ [person]) q := by
    intro q hq
    by_cases hsame : q.id = merged.id
    · have hqfirst : q = first := List.inj_on_of_nodup_map hnodup hq hfirstMem (hsame.trans hmergedId)
      rw [if_pos hsame, hqfirst, loadedPerson, hfirstKey, hafter]
      simp [hfirstNamed, hfirstDeleted, hmergedId]
    · rw [if_neg hsame]
      unfold loadedPerson
      by_cases hqnamed : isNamed q = true
      · by_cases hqdeleted : truthy q.deletedAt = true
        · simp [hqnamed, hqdeleted]
        · by_cases hkey : nameKey q = nameKey person
          · have hkeptId : ¬kept.id = q.id := fun heq => hsame (heq.symm.trans rfl)
            have hmergedId' : ¬merged.id = q.id := fun heq => hsame heq.symm
            rw [hkey, hbefore, hafter]
            simp [hqnamed, hqdeleted, hkeptId, hmergedId']
          · rw [namesakes_append_of_ne hkey]
      · simp [hqnamed]
  have hreplaced : replacePerson (people.map (loadedPerson nowIso deviceId people)) merged =
      people.map (loadedPerson nowIso deviceId (people ++ [person])) := by
    have hmapIds : (people.map (loadedPerson nowIso deviceId people)).map (·.id) = people.map (·.id) := by
      rw [List.map_map]
      exact List.map_congr_left fun q _ => loadedPerson_id _ _ _ q
    have hmem : merged.id ∈ (people.map (loadedPerson nowIso deviceId people)).map (·.id) := by
      rw [hmapIds, hmergedId]
      exact List.mem_map_of_mem hfirstMem
    rw [replacePerson_eq (hmapIds ▸ hnodup) hmem, List.map_map]
    apply List.map_congr_left
    intro q hq
    rw [Function.comp_apply, loadedPerson_id, hothers q hq]
  have hretired : loadedPerson nowIso deviceId (people ++ [person]) person =
      retiredPerson (normalizedPerson person nowIso) nowIso deviceId := by
    have hne : ¬merged.id = person.id := fun heq => hfresh first hfirstMem (hmergedId.symm.trans heq)
    rw [loadedPerson, hafter]
    simp [hnamed, hdeleted, hne]
  rw [hstep]
  refine ⟨?_, h.deletedNames_append (by simp [hdeleted]), ?_⟩
  · intro key
    by_cases hkey : key = nameKey person
    · rw [hkey, hafter]
      exact Function.update_self _ _ _
    · rw [namesakes_append_of_ne hkey]
      simp [Function.update_of_ne hkey, h.peopleByName]
  · rw [List.map_append, List.map_singleton, hretired, ← hreplaced, ← h.normalizedPeople]

theorem load (hids : ((people ++ [person]).map (·.id)).Nodup) :
    HasLoaded nowIso deviceId (people ++ [person]) (loadPerson nowIso deviceId state person) := by
  by_cases hnamed : isNamed person = true
  · by_cases hdeleted : truthy person.deletedAt = true
    · exact h.load_deleted hnamed hdeleted
    · have hlive : isLivePerson person = true := by simp [isLivePerson, hnamed, hdeleted]
      cases hkept : state.peopleByName (nameKey person) with
      | none => exact h.load_first hlive hkept
      | some kept => exact h.load_namesake hids hlive hkept
  · exact h.load_blank (by simpa using hnamed)

end HasLoaded

theorem hasLoaded_foldl (hids : (people.map (·.id)).Nodup) :
    HasLoaded nowIso deviceId people (people.foldl (loadPerson nowIso deviceId) {}) := by
  induction people using List.reverseRecOn with
  | nil => exact ⟨fun key => rfl, by simp, rfl⟩
  | append_singleton people person ih =>
    rw [List.foldl_append, List.foldl_cons, List.foldl_nil]
    exact (ih (nodup_append_person hids).1).load hids

/-! ### The people of assigned tasks -/

/-- The people that were derived from tasks since `loaded`. -/
structure HasDerived (uuid : Nat → String) (loaded : PeopleState) (acc : PeopleState × Nat) (derived : List Person) :
    Prop where
  normalizedPeople : acc.1.normalizedPeople = loaded.normalizedPeople ++ derived
  ids : derived.map (·.id) = (List.range acc.2).map uuid
  kept : ∀ key, (loaded.peopleByName key).isSome → (acc.1.peopleByName key).isSome
  deletedNames : acc.1.deletedNames = loaded.deletedNames
  newNames : ∀ q ∈ derived, loaded.peopleByName (nameKey q) = none ∧ nameKey q ∉ loaded.deletedNames
  live : ∀ q ∈ derived, q.deletedAt = none

theorem HasDerived.step {uuid : Nat → String} {loaded : PeopleState} {acc : PeopleState × Nat} {derived : List Person}
    (h : HasDerived uuid loaded acc derived) (task : Task) :
    ∃ derived', HasDerived uuid loaded (loadAssignee nowIso deviceId uuid acc task) derived' := by
  unfold loadAssignee
  dsimp only
  split_ifs with hskip
  · exact ⟨derived, h⟩
  · simp only [not_or, Option.not_isSome_iff_eq_none] at hskip
    obtain ⟨-, -, hnone, hdeleted⟩ := hskip
    let person := derivedPerson (uuid acc.2) (normalizePersonName task.assignedTo) nowIso deviceId
    refine ⟨derived ++ [person], ?_, ?_, ?_, h.deletedNames, ?_, ?_⟩
    · simp [PeopleState.push, h.normalizedPeople, person]
    · rw [List.map_append, h.ids, List.range_succ, List.map_append]
      rfl
    · intro key hkey
      dsimp only
      rw [Function.update_apply]
      split_ifs
      · rfl
      · exact h.kept key hkey
    · intro q hq
      rcases List.mem_append.1 hq with hq | hq
      · exact h.newNames q hq
      · obtain rfl := List.mem_singleton.1 hq
        refine ⟨?_, h.deletedNames ▸ hdeleted⟩
        by_contra hsome
        have hkept := h.kept (nameKey person) (Option.isSome_iff_ne_none.2 hsome)
        have hnone' : acc.1.peopleByName (nameKey person) = none := hnone
        rw [hnone'] at hkept
        cases hkept
    · intro q hq
      rcases List.mem_append.1 hq with hq | hq
      · exact h.live q hq
      · obtain rfl := List.mem_singleton.1 hq
        rfl

theorem hasDerived_foldl (uuid : Nat → String) (loaded : PeopleState) (tasks : List Task) :
    ∃ derived, HasDerived uuid loaded (tasks.foldl (loadAssignee nowIso deviceId uuid) (loaded, 0)) derived := by
  induction tasks using List.reverseRecOn with
  | nil => exact ⟨[], by simp, rfl, fun key h => h, rfl, by simp, by simp⟩
  | append_singleton tasks task ih =>
    obtain ⟨derived, h⟩ := ih
    rw [List.foldl_append, List.foldl_cons, List.foldl_nil]
    exact h.step task

/-- The ids that are handed out are new. -/
def IsFresh (uuid : Nat → String) (people : List Person) : Prop :=
  Function.Injective uuid ∧ ∀ n, ∀ person ∈ people, person.id ≠ uuid n

/-- The people of a list after a load: one for each, and new ones under names that had none. -/
theorem normalizePeopleForLoad_eq (nowIso : String) (deviceId : Option String) (tasks : List Task) {uuid : Nat → String}
    (hids : (people.map (·.id)).Nodup)
    (huuid : IsFresh uuid people) :
    ∃ derived, (normalizePeopleForLoad people tasks nowIso deviceId uuid).people =
        people.map (loadedPerson nowIso deviceId people) ++ derived ∧
      ((normalizePeopleForLoad people tasks nowIso deviceId uuid).people.map (·.id)).Nodup ∧
      ∀ q ∈ derived, q.deletedAt = none ∧ ∀ p ∈ people, isNamed p = true → nameKey p ≠ nameKey q := by
  have hloaded : HasLoaded nowIso deviceId people (people.foldl (loadPerson nowIso deviceId) {}) :=
    hasLoaded_foldl hids
  obtain ⟨derived, hderived⟩ : ∃ derived, HasDerived uuid (people.foldl (loadPerson nowIso deviceId) {})
      (tasks.foldl (loadAssignee nowIso deviceId uuid) (people.foldl (loadPerson nowIso deviceId) {}, 0)) derived :=
    hasDerived_foldl uuid _ tasks
  have heq : (normalizePeopleForLoad people tasks nowIso deviceId uuid).people =
      people.map (loadedPerson nowIso deviceId people) ++ derived := by
    rw [← hloaded.normalizedPeople, ← hderived.normalizedPeople]
    rfl
  refine ⟨derived, heq, ?_, fun q hq => ⟨hderived.live q hq, ?_⟩⟩
  · have hmapIds : (people.map (loadedPerson nowIso deviceId people)).map (·.id) = people.map (·.id) := by
      rw [List.map_map]
      exact List.map_congr_left fun q _ => loadedPerson_id _ _ _ q
    rw [heq, List.map_append, hmapIds, hderived.ids, List.nodup_append]
    refine ⟨hids, List.nodup_range.map huuid.1, ?_⟩
    rintro id hold id' hnew rfl
    obtain ⟨p, hp, rfl⟩ := List.mem_map.1 hold
    obtain ⟨n, -, hn⟩ := List.mem_map.1 hnew
    exact huuid.2 n p hp hn.symm
  · intro p hp hnamed hkey
    obtain ⟨hnone, hdeleted⟩ := hderived.newNames q hq
    by_cases hpdeleted : truthy p.deletedAt = true
    · exact hdeleted ((hloaded.deletedNames _).2 ⟨p, hp, hnamed, hpdeleted, hkey⟩)
    · rw [hloaded.peopleByName, keptPerson_eq_none] at hnone
      have hmem : p ∈ namesakes (nameKey q) people :=
        mem_namesakes.2 ⟨hp, by simp [isLivePerson, hnamed, hpdeleted], hkey⟩
      rw [hnone] at hmem
      cases hmem

end

end Mindwtr.Store
