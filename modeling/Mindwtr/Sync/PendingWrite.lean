import Mindwtr.Lib.System
import Mindwtr.Sync.SyncCycle

/-!
# What a cycle leaves unpublished is marked

At every point of a cycle, merged content in the local storage that the cycle has not published carries a
valid `pendingRemoteWriteAt` (`unpublished_marked`), unless the cycle was aborted for a local change and
`clearPendingRemoteWriteAfterLocalAbort` has rewritten the storage, which is what that hook is for
(`abort_clears_mark`).

What a document is stored as is stored unchanged, and `isLocalPersistUnchanged` answers true only where
storing the document changes no content (`Documented`).
-/

namespace Mindwtr.Sync

open Mindwtr.Js Mindwtr.Lib CycleState

variable {D : Type} {host : CycleHost D} {s t : CycleState D}

/-- The host keeps what the comments on `isLocalPersistUnchanged` say. -/
def Documented (host : CycleHost D) (s : CycleState D) : CycleEvent D → Prop
  | .prepared (.ok finalData) true => host.canonical finalData.content = s.stored.content
  | _ => True

def Marked (data : SyncDocument D) : Prop := hasPendingRemoteWriteFlag data = true

/-- Content that this cycle has merged into the storage is published or marked. -/
def MarkKept (s : CycleState D) : Prop :=
  s.stored.content = s.found ∨ s.published = some s.stored.content ∨ Marked s.stored

/-- What holds while the cycle waits for a call. -/
def WaitInv (host : CycleHost D) (s : CycleState D) : Prop :=
  match s.wait with
  | .idle | .clearAfterLocalAbort _ => True
  | .readLocal | .flushPendingLocal _ | .rereadLocal _ | .readRemote _ _ | .prepareRemoteWrite _ _
  | .persistSyncStatusOnly _ => s.stored.content = s.found
  | .writeRemoteOnly data | .recordRetryOnly data =>
    s.stored.content = s.found ∧ host.canonical data.content = s.found
  | .writeLocalFlagged data => s.stored.content = s.found ∧ Marked data
  | .writeRemote data => Marked s.stored ∧ Marked data ∧ host.canonical data.content = data.content
  | .recordRetry data => Marked data
  | .writeLocalFinal data _ => s.published = some data.content ∧ host.canonical data.content = data.content

structure CycleInv (host : CycleHost D) (s : CycleState D) : Prop where
  kept : s.hookCalled = false → MarkKept s
  early : s.hookCalled = true → s.wait = .idle
  wait : WaitInv host s

theorem cycleInv_init (stored : SyncDocument D) (remote : D) (nowMs : Int) :
    CycleInv host (CycleState.init stored remote nowMs) :=
  ⟨fun _ => .inl rfl, nofun, trivial⟩

theorem marked_withFlag (data : SyncDocument D) (pendingAt : Int) (attempts : Option Nat) :
    Marked (withPendingRemoteWriteFlag data pendingAt attempts) := rfl

theorem marked_withRetry {data : SyncDocument D} (h : Marked data) (nowMs : Int) (error : Thrown) :
    Marked (withPendingRemoteWriteRetry data nowMs error) := h

theorem content_clear (data : SyncDocument D) : (clearPendingRemoteWriteFlag data).content = data.content := by
  unfold clearPendingRemoteWriteFlag
  split <;> rfl

/-- A cycle that waits has not called the hook. -/
theorem CycleInv.keptOfWait (hs : CycleInv host s) (h : s.wait ≠ .idle) : MarkKept s := by
  refine hs.kept ?_
  by_contra hne
  exact h (hs.early (by simpa using hne))

/-- A step that leaves the storage and what is published as they are. -/
theorem CycleInv.move (hs : CycleInv host s) (hwait : s.wait ≠ .idle) (hstored : t.stored = s.stored)
    (hfound : t.found = s.found) (hpublished : t.published = s.published)
    (hhook : t.hookCalled = s.hookCalled) (ht : WaitInv host t) : CycleInv host t where
  kept _ := by
    rw [MarkKept, hstored, hfound, hpublished]
    exact hs.keptOfWait hwait
  early h := absurd (hs.early (hhook ▸ h)) hwait
  wait := ht

/-- The cycle writes a marked document. -/
theorem CycleInv.storeMarked (hs : CycleInv host s) (hwait : s.wait ≠ .idle) {data : SyncDocument D}
    (h : Marked data) {effect : Bool} {wait : CycleWait D}
    (ht : WaitInv host ((s.store host effect data).await wait)) :
    CycleInv host ((s.store host effect data).await wait) := by
  cases effect with
  | false => exact hs.move hwait rfl rfl rfl rfl ht
  | true => exact ⟨fun _ => .inr (.inr h), fun hhook => absurd (hs.early hhook) hwait, ht⟩

theorem CycleInv.afterReadLocal (hs : CycleInv host s) (hwait : s.wait = .readLocal) (content : D) :
    CycleInv host (s.afterReadLocal content) := by
  have hfound : s.stored.content = s.found := by
    have := hs.wait
    rwa [WaitInv, hwait] at this
  have hbusy : s.wait ≠ .idle := by rw [hwait]; nofun
  unfold CycleState.afterReadLocal
  dsimp only
  split
  · split
    · exact hs.move hbusy rfl rfl rfl rfl trivial
    · exact hs.move hbusy rfl rfl rfl rfl hfound
  · exact hs.move hbusy rfl rfl rfl rfl hfound

theorem CycleInv.afterPrepare (hs : CycleInv host s) {finalData data : SyncDocument D}
    {pending : Option PendingRemoteWriteMeta} {unchanged : Bool}
    (hwait : s.wait = .prepareRemoteWrite data pending)
    (hok : Documented host s (.prepared (.ok finalData) unchanged)) :
    CycleInv host (s.afterPrepare finalData pending unchanged) := by
  have hfound : s.stored.content = s.found := by
    have := hs.wait
    rwa [WaitInv, hwait] at this
  have hbusy : s.wait ≠ .idle := by rw [hwait]; nofun
  unfold CycleState.afterPrepare
  split
  · rename_i hunchanged
    rw [Bool.and_eq_true] at hunchanged
    rw [hunchanged.2] at hok
    exact hs.move hbusy rfl rfl rfl rfl ⟨hfound, hok.trans hfound⟩
  · exact hs.move hbusy rfl rfl rfl rfl ⟨hfound, marked_withFlag _ _ _⟩

theorem CycleInv.writeLocal (hidem : ∀ d, host.canonical (host.canonical d) = host.canonical d)
    (hs : CycleInv host s) {effect : Bool} {failure : Option Thrown}
    (h : s.writeLocal host effect failure = some t) : CycleInv host t := by
  have hinv := hs.wait
  unfold CycleState.writeLocal at h
  split at h
  · rename_i data hwait
    have hbusy : s.wait ≠ .idle := by rw [hwait]; nofun
    rw [WaitInv, hwait] at hinv
    obtain rfl := Option.some.inj h
    cases effect with
    | false => exact hs.move hbusy rfl rfl rfl rfl trivial
    | true => exact ⟨fun _ => .inl hinv.2, fun hhook => absurd (hs.early hhook) hbusy, trivial⟩
  · rename_i data hwait
    have hbusy : s.wait ≠ .idle := by rw [hwait]; nofun
    rw [WaitInv, hwait] at hinv
    obtain rfl := Option.some.inj h
    cases effect with
    | false => exact hs.move hbusy rfl rfl rfl rfl trivial
    | true => exact ⟨fun _ => .inr (.inr hinv), fun hhook => absurd (hs.early hhook) hbusy, trivial⟩
  · rename_i data hwait
    have hbusy : s.wait ≠ .idle := by rw [hwait]; nofun
    rw [WaitInv, hwait] at hinv
    split at h
    · exact Option.some.inj h ▸ hs.storeMarked hbusy hinv.2 trivial
    · exact Option.some.inj h ▸ hs.storeMarked hbusy hinv.2 ⟨hinv.2, hinv.2, hidem _⟩
  · rename_i data pendingAt hwait
    have hbusy : s.wait ≠ .idle := by rw [hwait]; nofun
    rw [WaitInv, hwait] at hinv
    have hstored : ∀ u : CycleState D, u.stored = persisted host data → u.published = s.published →
        u.hookCalled = s.hookCalled → WaitInv host u → CycleInv host u := by
      intro u hu hpublished hhook hwait'
      refine ⟨fun _ => .inr (.inl ?_), fun h => absurd (hs.early (hhook ▸ h)) hbusy, hwait'⟩
      rw [hpublished, hinv.1, hu]
      exact congrArg some hinv.2.symm
    have hnext : ∀ (u : CycleState D) (b : Bool), WaitInv host (u.await
        (if b then .clearAfterLocalAbort pendingAt else .idle)) := by
      intro u b
      cases b <;> trivial
    split at h
    · exact Option.some.inj h ▸ hstored _ rfl rfl rfl trivial
    · obtain rfl := Option.some.inj h
      cases effect with
      | false => exact hs.move hbusy rfl rfl rfl rfl (hnext _ _)
      | true => exact hstored _ rfl rfl rfl (hnext _ _)
  · cases h

theorem CycleInv.writeRemote (hs : CycleInv host s) {effect : Bool} {failure : Option Thrown}
    (h : s.writeRemote effect failure = some t) : CycleInv host t := by
  have hinv := hs.wait
  unfold CycleState.writeRemote at h
  split at h
  · rename_i data hwait
    have hbusy : s.wait ≠ .idle := by rw [hwait]; nofun
    rw [WaitInv, hwait] at hinv
    dsimp only at h
    split at h
    · obtain rfl := Option.some.inj h
      exact ⟨fun _ => .inl hinv.1, fun hhook => absurd (hs.early hhook) hbusy, hinv.1⟩
    · obtain rfl := Option.some.inj h
      refine hs.move hbusy rfl rfl rfl rfl ?_
      split
      · trivial
      · exact hinv
  · rename_i data hwait
    have hbusy : s.wait ≠ .idle := by rw [hwait]; nofun
    rw [WaitInv, hwait] at hinv
    dsimp only at h
    split at h
    · obtain rfl := Option.some.inj h
      refine ⟨fun _ => .inr (.inr hinv.1), fun hhook => absurd (hs.early hhook) hbusy, rfl, ?_⟩
      rw [content_clear]
      exact hinv.2.2
    · obtain rfl := Option.some.inj h
      refine hs.move hbusy rfl rfl rfl rfl ?_
      split
      · trivial
      · exact marked_withRetry hinv.2.1 _ _
  · cases h

theorem CycleInv.step (hidem : ∀ d, host.canonical (host.canonical d) = host.canonical d)
    (hs : CycleInv host s) {e : CycleEvent D} (hok : Documented host s e)
    (h : cycleStep host s e = some t) : CycleInv host t := by
  have hinv := hs.wait
  have hidle : CycleInv host (s.await .idle) := ⟨hs.kept, fun _ => rfl, trivial⟩
  unfold cycleStep at h
  split at h
  · obtain rfl := Option.some.inj h
    exact ⟨fun _ => .inl rfl, nofun, rfl⟩
  · exact Option.some.inj h ▸ hidle
  · exact Option.some.inj h ▸ hidle
  · rename_i hwait
    exact Option.some.inj h ▸ hs.afterReadLocal hwait _
  · rename_i hwait
    rw [WaitInv, hwait] at hinv
    exact Option.some.inj h ▸ hs.move (by rw [hwait]; nofun) rfl rfl rfl rfl hinv
  · exact Option.some.inj h ▸ hidle
  · rename_i hwait
    obtain rfl := Option.some.inj h
    exact ⟨fun _ => .inl rfl, fun hhook => absurd (hs.early hhook) (by rw [hwait]; nofun), rfl⟩
  · rename_i hwait
    exact Option.some.inj h ▸ hs.move (by rw [hwait]; nofun) rfl rfl rfl rfl trivial
  · rename_i localData pending hwait
    rw [WaitInv, hwait] at hinv
    obtain rfl := Option.some.inj h
    unfold CycleState.afterReadRemote
    split
    · exact hs.move (by rw [hwait]; nofun) rfl rfl rfl rfl trivial
    · exact hs.move (by rw [hwait]; nofun) rfl rfl rfl rfl hinv
  · exact Option.some.inj h ▸ hidle
  · rename_i hwait
    exact Option.some.inj h ▸ hs.afterPrepare hwait hok
  · exact hs.writeLocal hidem h
  · exact hs.writeRemote h
  · rename_i effect finalData hwait
    rw [WaitInv, hwait] at hinv
    obtain rfl := Option.some.inj h
    refine ⟨fun _ => .inl ?_, fun hhook => absurd (hs.early hhook) (by rw [hwait]; nofun), trivial⟩
    cases effect with
    | false => exact hinv
    | true => exact hinv
  · rename_i hwait
    obtain rfl := Option.some.inj h
    split
    · exact hidle
    · exact ⟨nofun, fun _ => rfl, trivial⟩
  · exact Option.some.inj h ▸ hidle
  · cases h

/-- Unless a local abort has let the hook rewrite the storage: content that differs from what the cycle
found and that it has not published carries a valid mark. -/
theorem unpublished_marked (hidem : ∀ d, host.canonical (host.canonical d) = host.canonical d)
    {stored : SyncDocument D} {remote : D} {nowMs : Int}
    (h : Reaches (cycleStep host) (Documented host) (CycleState.init stored remote nowMs) s)
    (hhook : s.hookCalled = false) (hmerged : s.stored.content ≠ s.found)
    (hunpublished : s.published ≠ some s.stored.content) : hasPendingRemoteWriteFlag s.stored = true := by
  have hs : CycleInv host s :=
    h.invariant (cycleInv_init stored remote nowMs) fun _ _ _ ha hok hab => ha.step hidem hok hab
  rcases hs.kept hhook with hsame | hpublished | hmarked
  · exact absurd hsame hmerged
  · exact absurd hpublished hunpublished
  · exact hmarked

/-- Contents as lists of ids; the merge adds what the remote holds. -/
def idHost : CycleHost (List Nat) := ⟨fun d => d, fun localIds remoteIds => some (localIds ++ remoteIds, "success")⟩

def emptyDocument : SyncDocument (List Nat) := ⟨[], none, none, .empty⟩

/-- The local storage holds what the remote held, and the remote write is under way. -/
def flaggedState : CycleState (List Nat) :=
  let data : SyncDocument (List Nat) := ⟨[1], some "success", none, ⟨some (.at 0), none, none⟩⟩
  ⟨data, [1], .writeRemote data, 0, [], none, false, 0, none, [⟨0, none⟩], none⟩

theorem reaches_flaggedState :
    Reaches (cycleStep idHost) (Documented idHost) (CycleState.init emptyDocument [1] 0) flaggedState := by
  have h1 : Reaches (cycleStep idHost) (Documented idHost) (CycleState.init emptyDocument [1] 0) _ :=
    .step .refl (show Documented idHost _ (.start 0) from trivial) rfl
  have h2 := h1.step (show Documented idHost _ (.readLocal (.ok [])) from trivial) rfl
  have h3 := h2.step (show Documented idHost _ (.readRemote (.ok [1])) from trivial) rfl
  have h4 := h3.step (show Documented idHost _
    (.prepared (.ok ⟨[1], some "success", none, .empty⟩) false) from trivial) rfl
  exact h4.step (show Documented idHost _ (.writeLocal true none) from trivial) rfl

theorem unpublished_marked_flagged : flaggedState.stored.content ≠ flaggedState.found ∧
    hasPendingRemoteWriteFlag flaggedState.stored = true := by
  have hmerged : flaggedState.stored.content ≠ flaggedState.found := nofun
  exact ⟨hmerged, unpublished_marked (fun _ => rfl) reaches_flaggedState rfl hmerged nofun⟩

/-- A local change aborts the remote write, and the hook stores what the cycle has merged without its
mark. -/
theorem abort_clears_mark : ∃ s, Reaches (cycleStep idHost) (Documented idHost)
    (CycleState.init emptyDocument [1] 0) s ∧ s.stored.content ≠ s.found ∧
      s.published ≠ some s.stored.content ∧ hasPendingRemoteWriteFlag s.stored = false := by
  have haborted := reaches_flaggedState.step (show Documented idHost _
    (.writeRemote false (some (.error "LocalSyncAbort" "Local changes detected during sync"))) from trivial) rfl
  have hcleared := haborted.step (show Documented idHost _
    (.clearedAfterAbort (some ⟨[1], some "success", none, .empty⟩)) from trivial) rfl
  exact ⟨_, hcleared, nofun, nofun, rfl⟩

end Mindwtr.Sync
