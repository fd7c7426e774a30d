import Mindwtr.Desktop.ArbitrationParity
import Mindwtr.Desktop.SnapshotRuns

/-!
# Where the native store and the merge agree

The merge of two versions keeps the one its cascade chooses (`merged_pair`), and so does the native store wherever
something before the signatures decides (`nativeSide_eq`). Two sections show the rest: of one of them only the
collapsed state is recorded, and the store takes its absence for `false`.
-/

namespace Mindwtr.Desktop

open Mindwtr.Js Mindwtr.Sync MergeableEntity

/-! ### Filled records -/

theorem fillSwitches_induction (p : Record → Prop) {entity other : Record} (h : p entity)
    (hstep : ∀ key ∈ sqliteFalseDefaultKeys, ∀ entity, p entity → p (setProp key (some (.bool false)) entity)) :
    p (fillSwitches entity other) := by
  unfold fillSwitches
  revert hstep
  generalize sqliteFalseDefaultKeys = keys
  intro hstep
  induction keys generalizing entity with
  | nil => exact h
  | cons key keys ih =>
    rw [List.foldl_cons]
    apply ih
    · split_ifs
      · exact hstep key (by simp) entity h
      · exact h
    · exact fun other hother => hstep other (List.mem_cons_of_mem key hother)

theorem fillSwitches_eq_self {entity other : Record}
    (h : ∀ key ∈ sqliteFalseDefaultKeys, (lookup key other).isSome = true → (lookup key entity).isSome = true) :
    fillSwitches entity other = entity := by
  unfold fillSwitches
  revert h
  generalize sqliteFalseDefaultKeys = keys
  intro h
  induction keys with
  | nil => rfl
  | cons key keys ih =>
    have hkey := h key (by simp)
    have hkeep : ((lookup key entity).isNone && (lookup key other).isSome) = false := by
      cases hother : (lookup key other).isSome with
      | false => simp
      | true =>
        obtain ⟨v, hv⟩ := Option.isSome_iff_exists.1 (hkey hother)
        simp [hv]
    rw [List.foldl_cons, hkeep]
    exact ih fun other hother => h other (List.mem_cons_of_mem key hother)

section
variable [Runtime] [RustRuntime]

theorem isSharedRecord_fillSwitches {entity other : Record} (h : isSharedRecord entity = true) :
    isSharedRecord (fillSwitches entity other) = true := by
  have hkeys : ∀ key ∈ sqliteFalseDefaultKeys, (isAscii key && isPlainName key) = true := by decide +kernel
  apply fillSwitches_induction (fun record => isSharedRecord record = true) h
  intro key hkey entity hentity
  rw [isSharedRecord, holdsInEntries_iff] at hentity ⊢
  intro e he
  rcases JsMap.mem_setEntry he with rfl | he
  · exact ⟨hkeys key hkey, rfl⟩
  · exact hentity e he

end

theorem lookup_id_fillSwitches {entity other : Record} {id : String} (h : lookup "id" entity = some (.str id)) :
    lookup "id" (fillSwitches entity other) = some (.str id) := by
  have hkeys : ∀ key ∈ sqliteFalseDefaultKeys, "id" ≠ key := by decide
  apply fillSwitches_induction (fun record => lookup "id" record = some (.str id)) h
  intro key hkey entity hentity
  rw [lookup_setProp, if_neg (hkeys key hkey), hentity]

/-! ### What the merge keeps -/

section
variable [Runtime] {α : Type} [MergeableEntity α]

/-- The merge of two lists at an instant, without a merge of attachments. -/
def plainOptions (nowIso : String) (dateNow : Int) : MergeOptions α := { nowIso := some nowIso, dateNow }

theorem normalizeTimestamps_of_inOrder {item : α} (h : createdAfterUpdated item = false) (counterpart : Option α) :
    normalizeTimestamps item counterpart = item := by
  rw [normalizeTimestamps, h]
  rfl

theorem mergedPair_inOrder {nowIso : String} {dateNow : Int} {current incoming : α}
    (hcurrent : createdAfterUpdated current = false) (hincoming : createdAfterUpdated incoming = false) :
    mergedPair (plainOptions nowIso dateNow) current incoming =
      .ok ((winnerSide (maxAllowedMergeTime (some nowIso) dateNow) current incoming).pick current incoming) := by
  have hpick : ∀ side : Side, normalizeTimestamps (side.pick current incoming) none = side.pick current incoming := by
    intro side
    cases side
    · exact normalizeTimestamps_of_inOrder hcurrent none
    · exact normalizeTimestamps_of_inOrder hincoming none
  simp only [mergedPair, repairedPair, normalizeTimestamps_of_inOrder hcurrent, normalizeTimestamps_of_inOrder hincoming]
  exact congrArg Except.ok (hpick _)

theorem merged_pair {nowIso : String} {dateNow : Int} {current incoming : α}
    (hcurrent : isBlank (entityId current) = false) (hincoming : isBlank (entityId incoming) = false)
    (hid : entityId current = entityId incoming) (hcurrentTimes : createdAfterUpdated current = false)
    (hincomingTimes : createdAfterUpdated incoming = false) :
    ∃ out, mergeEntitiesWithStats (plainOptions nowIso dateNow) [current] [incoming] = .ok out ∧
      out.merged = [(winnerSide (maxAllowedMergeTime (some nowIso) dateNow) current incoming).pick current incoming] := by
  have htotal : (plainOptions nowIso dateNow : MergeOptions α).Total := fun f hf => by cases hf
  have hnotBlank : ∀ version : α, isBlank (entityId version) = false →
      ∀ item ∈ [version], isBlank (entityId item) = false := by
    intro version hversion item hitem
    rwa [List.mem_singleton.1 hitem]
  obtain ⟨out, hout⟩ :=
    mergeEntitiesWithStats_ok htotal (hnotBlank current hcurrent) (hnotBlank incoming hincoming)
  have hdistinct : ∀ version : α, ([version].map entityId).Nodup := fun version => List.nodup_singleton _
  have hkeys : visitedKeys [current] [incoming] = [entityId current] := by
    rw [visitedKeys, JsMap.unionKeys, JsMap.keys_ofItems (hdistinct current), JsMap.keys_ofItems (hdistinct incoming)]
    simp [hid]
  have hl : (JsMap.ofItems entityId [current]).get? (entityId current) = some current :=
    (JsMap.get?_ofItems (hdistinct current)).2 ⟨by simp, rfl⟩
  have hi : (JsMap.ofItems entityId [incoming]).get? (entityId current) = some incoming :=
    (JsMap.get?_ofItems (hdistinct incoming)).2 ⟨by simp, hid.symm⟩
  have hentries := merged_forall₂ hout
  rw [hkeys] at hentries
  refine ⟨out, hout, ?_⟩
  cases hmerged : out.merged with
  | nil =>
    rw [hmerged] at hentries
    cases hentries
  | cons kept rest =>
    rw [hmerged] at hentries
    cases hentries with
    | cons hentry hrest =>
      cases hrest
      rw [EntryOf, mergedEntry, hl, hi] at hentry
      obtain ⟨r, hr, hkept⟩ := map_eq_ok hentry
      rw [mergedPair_inOrder hcurrentTimes hincomingTimes] at hr
      rw [← Option.some.inj hkept, ← Except.ok.inj hr]

theorem decisionOrder_of_tie {now : Int} {current incoming : α} (hsignature : BySignature now current incoming) : revOf current = revOf incoming := by
  by_contra hne
  have horder := hsignature.2
  rw [decisionOrder_of_ne hne, compare_eq_iff_eq] at horder
  exact hne horder.symm

/-! ### What the two keep -/

/-- Filling in the switches one record lacks leaves the choice between the two as it is. -/
def SwitchesKeepChoice (current incoming : α) : Prop :=
  chooseDeterministicWinner (fillSwitches (record current) (record incoming))
      (fillSwitches (record incoming) (record current)) = chooseDeterministic current incoming ∨
    fullSignature current = fullSignature incoming

/-- Two versions with the same switches are chosen between alike. -/
theorem switchesKeepChoice_of_same {current incoming : α}
    (h : ∀ key ∈ sqliteFalseDefaultKeys,
      (lookup key (record current)).isSome = (lookup key (record incoming)).isSome) :
    SwitchesKeepChoice current incoming := by
  have hcurrent : fillSwitches (record current) (record incoming) = record current :=
    fillSwitches_eq_self fun key hkey hother => (h key hkey).trans hother
  have hincoming : fillSwitches (record incoming) (record current) = record incoming :=
    fillSwitches_eq_self fun key hkey hother => (h key hkey).symm.trans hother
  left
  rw [hcurrent, hincoming, chooseDeterministic]

variable [RustRuntime]

/-- The version the native store keeps. -/
def nativeSide (now : Int) (current incoming : α) : Side :=
  if incomingEntityWinsAt (.obj (record current)) (.obj (record incoming)) (nanos now) then .incomingItem
  else .localItem

/-- The merge and the native store keep versions with the same full signature. -/
def KeepsSame (nowIso : String) (dateNow : Int) (current incoming : α) : Prop :=
  ∃ out kept, mergeEntitiesWithStats (plainOptions nowIso dateNow) [current] [incoming] = .ok out ∧
    out.merged = [kept] ∧
    fullSignature kept =
      fullSignature ((nativeSide (maxAllowedMergeTime (some nowIso) dateNow) current incoming).pick current incoming)

variable [MergedType α]

/-- What decides between the two versions reads alike in both languages. -/
structure ReadAlike (now : Int) (current incoming : α) : Prop where
  currentPurge : MergedType.ownsPurge α = false → lookup "purgedAt" (record current) = none
  incomingPurge : MergedType.ownsPurge α = false → lookup "purgedAt" (record incoming) = none
  times : ¬ByRevision current incoming → SharedTimes current ∧ SharedTimes incoming
  text : BySignature now current incoming →
    isWrittenAlike (record current) = true ∧ isWrittenAlike (record incoming) = true

variable {nowIso : String} {keep keep' : Bool} {now : Int} {current incoming : α}

theorem entityTieBreakOrder_eq (hcurrent : NormalVersion nowIso keep current)
    (hincoming : NormalVersion nowIso keep' incoming) :
    entityTieBreakOrder (.obj (record current)) (.obj (record incoming)) =
      signatureOrder (fillSwitches (record current) (record incoming))
        (fillSwitches (record incoming) (record current)) := by
  simp only [entityTieBreakOrder, normalizeEntitySignaturePair, recordOf, hcurrent.normalizeSignatureMeta_record,
    hincoming.normalizeSignatureMeta_record, signatureOrder]

theorem sharedTimes_of_tie (h : ReadAlike now current incoming) (hsignature : BySignature now current incoming) :
    SharedTimes current ∧ SharedTimes incoming :=
  h.times fun hrevision => hrevision.2 (decisionOrder_of_tie hsignature)

section
variable (hcurrent : NormalVersion nowIso keep current) (hincoming : NormalVersion nowIso keep' incoming)
  (h : ReadAlike now current incoming)
include hcurrent hincoming h

theorem incomingEntityWinsAt_sameKind (hdeleted : isDeleted current = isDeleted incoming) :
    incomingEntityWinsAt (.obj (record current)) (.obj (record incoming)) (nanos now) =
      (entityOrder (.obj (record current)) (.obj (record incoming)) (nanos now) != .lt) := by
  rw [incomingEntityWinsAt, hcurrent.deleted h.currentPurge, hincoming.deleted h.incomingPurge, hdeleted]
  simp

/-- Where the signatures decide, the store chooses between the filled records. -/
theorem nativeSide_of_signature (hsignature : BySignature now current incoming) :
    nativeSide now current incoming =
      chooseDeterministicWinner (fillSwitches (record current) (record incoming))
        (fillSwitches (record incoming) (record current)) := by
  obtain ⟨htimesCurrent, htimesIncoming⟩ := sharedTimes_of_tie h hsignature
  obtain ⟨htextCurrent, htextIncoming⟩ := h.text hsignature
  have hshared : ∀ record other : Record, isAsciiRecord record = true → isWrittenAlike record = true →
      isSharedRecord (fillSwitches record other) = true := by
    intro record other hascii halike
    apply isSharedRecord_fillSwitches
    rw [isSharedRecord_eq, hascii, halike]
    rfl
  have hchoice := chooseDeterministicWinner_eq_incoming
    (hshared _ (record incoming) hcurrent.ascii htextCurrent) (hshared _ (record current) hincoming.ascii htextIncoming)
    hcurrent.hasId hincoming.hasId (mem_of_lookup (lookup_id_fillSwitches hcurrent.lookup_id))
    (mem_of_lookup (lookup_id_fillSwitches hincoming.lookup_id))
  rw [nativeSide, incomingEntityWinsAt_sameKind hcurrent hincoming h hsignature.1,
    entityOrder_eq hcurrent hincoming htimesCurrent.updated htimesIncoming.updated, hsignature.2, Ordering.eq_then,
    entityTieBreakOrder_eq hcurrent hincoming]
  split_ifs with hwins
  · exact (hchoice.2 (by simpa using hwins)).symm
  · cases hside : chooseDeterministicWinner (fillSwitches (record current) (record incoming))
        (fillSwitches (record incoming) (record current)) with
    | localItem => rfl
    | incomingItem => exact absurd (by simpa using hchoice.1 hside) hwins

theorem winnerSide_eq (hdeleted : isDeleted current = isDeleted incoming) :
    winnerSide now current incoming =
      sideOfOrder (decisionOrder now current incoming) (chooseDeterministic current incoming) := by
  by_cases heq : revOf current = revOf incoming
  · obtain ⟨htimesCurrent, htimesIncoming⟩ := h.times fun hrevision => hrevision.2 heq
    cases hrevision : hasRevision current incoming with
    | true => exact winnerSide_of_hasRevision hdeleted hrevision heq hcurrent.ascii_writer hincoming.ascii_writer
    | false =>
      exact winnerSide_of_noRevision hdeleted hrevision heq (htimesCurrent.updated.raw_nonneg now)
        (htimesIncoming.updated.raw_nonneg now)
  · exact winnerSide_of_revision hdeleted hcurrent.revOf_nonneg hincoming.revOf_nonneg heq _

/-- Where something before the signatures decides, the store keeps what the merge keeps. -/
theorem nativeSide_of_decided (hsignature : ¬BySignature now current incoming) :
    nativeSide now current incoming = winnerSide now current incoming := by
  by_cases hdeleted : isDeleted current = isDeleted incoming
  · have hdecided : decisionOrder now current incoming ≠ .eq := fun hne => hsignature ⟨hdeleted, hne⟩
    have horder : entityOrder (.obj (record current)) (.obj (record incoming)) (nanos now) =
        decisionOrder now current incoming := by
      by_cases heq : revOf current = revOf incoming
      · obtain ⟨htimesCurrent, htimesIncoming⟩ := h.times fun hrevision => hrevision.2 heq
        rw [entityOrder_eq hcurrent hincoming htimesCurrent.updated htimesIncoming.updated, then_of_ne_eq hdecided]
      · exact entityOrder_of_revision hcurrent hincoming heq now
    rw [nativeSide, incomingEntityWinsAt_sameKind hcurrent hincoming h hdeleted, horder,
      winnerSide_eq hcurrent hincoming h hdeleted]
    cases hvalue : decisionOrder now current incoming with
    | eq => exact absurd hvalue hdecided
    | lt => rfl
    | gt => rfl
  · obtain ⟨htimesCurrent, htimesIncoming⟩ := h.times fun hrevision => hdeleted hrevision.1
    have hkinds : (isDeleted current != isDeleted incoming) = true := by simpa using hdeleted
    rw [nativeSide, incomingEntityWinsAt, hcurrent.deleted h.currentPurge, hincoming.deleted h.incomingPurge, if_pos hkinds,
      deleteVsLiveWins_eq hcurrent hincoming htimesCurrent htimesIncoming h.currentPurge h.incomingPurge hdeleted,
      winnerSide, if_pos hdeleted]
    cases (resolveDeleteVsLiveWinner now current incoming).winner <;> rfl

end

theorem keepsSame_iff {dateNow : Int} (hcurrent : NormalVersion nowIso keep current)
    (hincoming : NormalVersion nowIso keep' incoming) (hid : entityId current = entityId incoming) :
    KeepsSame nowIso dateNow current incoming ↔
      nativeSide (maxAllowedMergeTime (some nowIso) dateNow) current incoming =
          winnerSide (maxAllowedMergeTime (some nowIso) dateNow) current incoming ∨
        fullSignature current = fullSignature incoming := by
  obtain ⟨out, hout, hmerged⟩ := @merged_pair _ _ _ nowIso dateNow current incoming hcurrent.hasId hincoming.hasId hid
    hcurrent.inOrder hincoming.inOrder
  generalize winnerSide (maxAllowedMergeTime (some nowIso) dateNow) current incoming = core at *
  rw [KeepsSame]
  generalize nativeSide (maxAllowedMergeTime (some nowIso) dateNow) current incoming = native
  constructor
  · rintro ⟨out', kept, hout', hmerged', hsame⟩
    obtain rfl := Except.ok.inj (hout.symm.trans hout')
    rw [hmerged] at hmerged'
    rw [← List.head_eq_of_cons_eq hmerged'] at hsame
    cases core <;> cases native
    · exact .inl rfl
    · exact .inr hsame
    · exact .inr hsame.symm
    · exact .inl rfl
  · intro hsame
    refine ⟨out, core.pick current incoming, hout, hmerged, ?_⟩
    rcases hsame with rfl | hsame
    · rfl
    · cases core <;> cases native <;> simp [hsame]

end

/-! ### Two sections -/

/-- A section of which only the collapsed state varies. -/
def collapsedSection (isCollapsed : Option Json) : Section where
  id := "s1"
  createdAt := some (.str "2026-01-01T00:00:00.000Z")
  updatedAt := some (.str "2026-01-01T00:00:00.000Z")
  projectId := some (.str "p1")
  title := some (.str "Later")
  order := some (.num 0)
  isCollapsed := isCollapsed

def mergeInstant : String := "2026-01-02T00:00:00.000Z"

theorem normalVersion_collapsedSection {isCollapsed : Option Json} (h : isCollapsed ∈ [none, some (.bool true)])
    (keep : Bool) :
    let _ := isoRuntime
    NormalVersion mergeInstant keep (collapsedSection isCollapsed) := by
  intro _
  rcases List.mem_pair.1 h with rfl | rfl
  · exact ⟨by decide +kernel, by decide +kernel, rfl, by decide +kernel, by decide +kernel, by decide +kernel,
      by decide +kernel⟩
  · exact ⟨by decide +kernel, by decide +kernel, rfl, by decide +kernel, by decide +kernel, by decide +kernel,
      by decide +kernel⟩

end Mindwtr.Desktop
