import Mindwtr.Desktop.SnapshotMerge
import Mindwtr.Lib.System

/-!
# Many windows over one database

Any number of windows and processes save snapshots in any order, each over the document it last observed. What one
save may do to the shared document is `SaveIsSafe`; it holds of every save of every run (`snapshot_merge_safe`),
because in every state the ids of the document and of what each window observed are among the ids ever used, and a
window that brings an id it has not observed brings one that nobody has used.

A save of an unchanged snapshot does change the document where another window swapped a row without a newer revision
or time, and the old row wins the arbitration (`unchanged_save_reverts`).
-/

namespace Mindwtr.Desktop

open Mindwtr.Js Mindwtr.Lib Mindwtr.Sync

structure SharedStore (Window : Type) where
  canonical : DataSnapshot
  /-- What each window last observed. -/
  observed : Window → DataSnapshot
  /-- Every id the document or a snapshot has held. -/
  used : EntityTable → List String

inductive StoreEvent (Window : Type) where
  | observe (window : Window) (snapshot : DataSnapshot)
  | save (window : Window) (target : DataSnapshot) (mergeNow : Int)

def idsOf (snapshot : DataSnapshot) (table : EntityTable) : List String := entityIds (snapshot.entities table)

def DistinctIds (snapshot : DataSnapshot) : Prop := ∀ table, (idsOf snapshot table).Nodup

theorem mem_ids_of_entityById {snapshot : DataSnapshot} {table : EntityTable} {id : String} {row : Json}
    (h : entityById id (snapshot.entities table) = some row) : id ∈ idsOf snapshot table :=
  mem_entityIds.2 ⟨row, mem_of_entityById h, idOf?_of_entityById h⟩

theorem entityById_of_mem_ids {snapshot : DataSnapshot} {table : EntityTable} {id : String}
    (h : id ∈ idsOf snapshot table) : ∃ row, entityById id (snapshot.entities table) = some row := by
  cases hrow : entityById id (snapshot.entities table) with
  | none => exact absurd h (entityById_eq_none.1 hrow)
  | some row => exact ⟨row, rfl⟩

section
variable {Window : Type}

/-- All windows have read the document. -/
def SharedStore.init (canonical : DataSnapshot) : SharedStore Window := ⟨canonical, fun _ => canonical, idsOf canonical⟩

/-- A window observes the document, the snapshot it saved, or a mix of the two. It saves an edited copy of what it
observed, in which an id it has not observed is a new one. -/
def EditsWhatItObserved (s : SharedStore Window) : StoreEvent Window → Prop
  | .observe _ snapshot => DistinctIds snapshot ∧ ∀ table, ∀ id ∈ idsOf snapshot table, id ∈ s.used table
  | .save window target _ => DistinctIds target ∧
      ∀ table, ∀ id ∈ idsOf target table, id ∈ idsOf (s.observed window) table ∨ id ∉ s.used table

structure StoreInv (s : SharedStore Window) : Prop where
  distinct : DistinctIds s.canonical
  observedDistinct : ∀ window, DistinctIds (s.observed window)
  canonicalUsed : ∀ table, ∀ id ∈ idsOf s.canonical table, id ∈ s.used table
  observedUsed : ∀ window table, ∀ id ∈ idsOf (s.observed window) table, id ∈ s.used table
  hasSettings : s.canonical.settings.isSome = true

theorem storeInv_init {canonical : DataSnapshot} (hdistinct : DistinctIds canonical)
    (hsettings : canonical.settings.isSome = true) : StoreInv (@SharedStore.init Window canonical) :=
  ⟨hdistinct, fun _ => hdistinct, fun _ _ h => h, fun _ _ _ h => h, hsettings⟩

variable {s : SharedStore Window} {window : Window} {target : DataSnapshot} {mergeNow : Int} {table : EntityTable}
  {id : String}

section
variable [Runtime]

/-- The changed rows of the baseline are observed ones. -/
theorem observed_of_changed {row : Json} (hinv : StoreInv s)
    (h : entityById id ((buildChangedEntityBaseline (s.observed window) target).changed table) = some row) :
    entityById id ((s.observed window).entities table) = some row :=
  entityById_of_mem (hinv.observedDistinct window table) (List.mem_of_mem_filter (mem_of_entityById h))
    (idOf?_of_entityById h)

/-- An unchanged snapshot has no changed row. -/
theorem changed_eq_nil (hinv : StoreInv s) (hsame : target.entities table = (s.observed window).entities table) :
    entityIds ((buildChangedEntityBaseline (s.observed window) target).changed table) = [] := by
  rw [List.eq_nil_iff_forall_not_mem]
  intro id hmem
  obtain ⟨entity, hchanged, hid⟩ := mem_entityIds.1 hmem
  obtain ⟨hentity, hdiffers⟩ := List.mem_filter.1 hchanged
  have hfound : entityById id (target.entities table) = some entity := by
    rw [hsame]
    exact entityById_of_mem (hinv.observedDistinct window table) hentity hid
  simp [isChangedOrOmitted, hid, hfound] at hdiffers

theorem acceptsSettings_observed (h : acceptsSettings s.canonical target
    (some (buildChangedEntityBaseline (s.observed window) target)) = true) :
    (s.observed window).settings = s.canonical.settings ∧
      sameSettings (s.observed window).settings target.settings = false := by
  simp only [acceptsSettings, Bool.and_eq_true, beq_iff_eq, buildChangedEntityBaseline] at h
  obtain ⟨-, hpresent, hequal⟩ := h
  cases hsame : sameSettings (s.observed window).settings target.settings with
  | true => simp [hsame] at hpresent
  | false =>
    rw [hsame] at hequal
    exact ⟨hequal, rfl⟩

variable [RustRuntime]

def savedDocument (s : SharedStore Window) (window : Window) (target : DataSnapshot) (mergeNow : Int) : DataSnapshot :=
  mergeDataSnapshotsAt s.canonical target (some (buildChangedEntityBaseline (s.observed window) target)) mergeNow

/-- What a save may do to the document. -/
structure SaveIsSafe (s : SharedStore Window) (window : Window) (target : DataSnapshot) (mergeNow : Int)
    (after : DataSnapshot) : Prop where
  /-- A row is removed only by a save that leaves it out and observed it as it is. -/
  removed : ∀ table id, id ∈ idsOf s.canonical table → id ∉ idsOf after table → id ∉ idsOf target table ∧
    ∃ row, entityById id (s.canonical.entities table) = some row ∧
      entityById id ((s.observed window).entities table) = some row
  /-- A row that is not as it was observed is replaced only by a version that wins. -/
  replaced : ∀ table id row next, entityById id (s.canonical.entities table) = some row →
    entityById id (after.entities table) = some next → next ≠ row → entityById id (target.entities table) = some next ∧
      (entityById id ((s.observed window).entities table) = some row ∨ incomingEntityWinsAt row next mergeNow = true)
  /-- A row that is gone stays gone. -/
  gone : ∀ table id, id ∈ s.used table → id ∉ idsOf s.canonical table → id ∉ idsOf after table
  /-- A new row is there. -/
  created : ∀ table id row, id ∉ s.used table → entityById id (target.entities table) = some row →
    entityById id (after.entities table) = some row
  distinct : DistinctIds after
  /-- An unchanged snapshot removes and creates nothing, and leaves the settings and every row that is as it was
  observed. -/
  unchanged : (∀ table, target.entities table = (s.observed window).entities table) →
    target.settings = (s.observed window).settings → after.settings = s.canonical.settings ∧
      ∀ table, idsOf after table = idsOf s.canonical table ∧
        ∀ id row, entityById id (s.canonical.entities table) = some row →
          entityById id ((s.observed window).entities table) = some row →
          entityById id (after.entities table) = some row
  settings : after.settings ≠ s.canonical.settings → (s.observed window).settings = s.canonical.settings

/-! ### One save -/

theorem distinct_savedDocument (hinv : StoreInv s) (htarget : DistinctIds target) :
    DistinctIds (savedDocument s window target mergeNow) :=
  fun table => nodup_merged (hinv.distinct table) (htarget table)

/-- The ids of a saved document. -/
theorem mem_ids_savedDocument : id ∈ idsOf (savedDocument s window target mergeNow) table ↔
    (∃ row ∈ s.canonical.entities table, idOf? row = some id ∧ mergeCanonicalRow (target.entities table)
      ((buildChangedEntityBaseline (s.observed window) target).changed table) mergeNow row ≠ none) ∨
    (id ∈ idsOf target table ∧ id ∉ idsOf s.canonical table ∧ id ∉ idsOf (s.observed window) table ∧
      id ∉ entityIds ((buildChangedEntityBaseline (s.observed window) target).changed table)) :=
  mem_entityIds_merged

theorem save_removed (hinv : StoreInv s) (hold : id ∈ idsOf s.canonical table)
    (hnew : id ∉ idsOf (savedDocument s window target mergeNow) table) : id ∉ idsOf target table ∧
    ∃ row, entityById id (s.canonical.entities table) = some row ∧
      entityById id ((s.observed window).entities table) = some row := by
  obtain ⟨row, hrow⟩ := entityById_of_mem_ids hold
  have hnone : mergeCanonicalRow (target.entities table)
      ((buildChangedEntityBaseline (s.observed window) target).changed table) mergeNow row = none := by
    by_contra hkept
    exact hnew (mem_ids_savedDocument.2 (.inl ⟨row, mem_of_entityById hrow, idOf?_of_entityById hrow, hkept⟩))
  obtain ⟨id', hid, homitted, hbaseline⟩ := mergeCanonicalRow_none hnone
  obtain rfl : id' = id := Option.some.inj (hid.symm.trans (idOf?_of_entityById hrow))
  exact ⟨entityById_eq_none.1 homitted, row, hrow, observed_of_changed hinv hbaseline⟩

/-- What the row of an id becomes. -/
theorem entityById_savedDocument {row : Json} (hinv : StoreInv s) (htarget : DistinctIds target)
    (hrow : entityById id (s.canonical.entities table) = some row) :
    entityById id ((savedDocument s window target mergeNow).entities table) = mergeCanonicalRow (target.entities table)
      ((buildChangedEntityBaseline (s.observed window) target).changed table) mergeNow row := by
  cases hmerged : mergeCanonicalRow (target.entities table)
      ((buildChangedEntityBaseline (s.observed window) target).changed table) mergeNow row with
  | none =>
    rw [entityById_eq_none]
    intro hmem
    rcases mem_ids_savedDocument.1 hmem with ⟨other, hother, hid, hkept⟩ | ⟨-, habsent, -⟩
    · rw [eq_of_sameId (hinv.distinct table) hother (mem_of_entityById hrow) hid (idOf?_of_entityById hrow)] at hkept
      exact hkept hmerged
    · exact habsent (mem_ids_of_entityById hrow)
  | some next =>
    apply entityById_of_mem (distinct_savedDocument hinv htarget table)
    · exact List.mem_append_left _ (List.mem_filterMap.2 ⟨row, mem_of_entityById hrow, hmerged⟩)
    · rw [idOf?_mergeCanonicalRow hmerged, idOf?_of_entityById hrow]

theorem save_replaced {row next : Json} (hinv : StoreInv s) (htarget : DistinctIds target)
    (hrow : entityById id (s.canonical.entities table) = some row)
    (hnext : entityById id ((savedDocument s window target mergeNow).entities table) = some next) (hne : next ≠ row) :
    entityById id (target.entities table) = some next ∧
      (entityById id ((s.observed window).entities table) = some row ∨
        incomingEntityWinsAt row next mergeNow = true) := by
  rw [entityById_savedDocument hinv htarget hrow] at hnext
  obtain ⟨id', hid, htarget', hswap⟩ := mergeCanonicalRow_replaced hnext hne
  obtain rfl : id' = id := Option.some.inj (hid.symm.trans (idOf?_of_entityById hrow))
  refine ⟨htarget', ?_⟩
  rcases hswap with ⟨hbaseline, -⟩ | ⟨-, hwins⟩
  · exact .inl (observed_of_changed hinv hbaseline)
  · exact .inr hwins

theorem save_gone (hobserves : ∀ id ∈ idsOf target table, id ∈ idsOf (s.observed window) table ∨ id ∉ s.used table)
    (hused : id ∈ s.used table) (hgone : id ∉ idsOf s.canonical table) :
    id ∉ idsOf (savedDocument s window target mergeNow) table := by
  intro hmem
  rcases mem_ids_savedDocument.1 hmem with ⟨row, hrow, hid, -⟩ | ⟨htarget, -, hunobserved, -⟩
  · exact hgone (mem_entityIds.2 ⟨row, hrow, hid⟩)
  · rcases hobserves id htarget with hobserved | hfresh
    · exact hunobserved hobserved
    · exact hfresh hused

theorem save_created {row : Json} (hinv : StoreInv s) (htarget : DistinctIds target) (hfresh : id ∉ s.used table)
    (hrow : entityById id (target.entities table) = some row) :
    entityById id ((savedDocument s window target mergeNow).entities table) = some row := by
  have hunobserved : id ∉ idsOf (s.observed window) table := fun h => hfresh (hinv.observedUsed window table id h)
  have habsent : id ∉ idsOf s.canonical table := fun h => hfresh (hinv.canonicalUsed table id h)
  have hunchanged : id ∉ entityIds ((buildChangedEntityBaseline (s.observed window) target).changed table) := by
    intro h
    obtain ⟨entity, hmem, hid⟩ := mem_entityIds.1 h
    exact hunobserved (mem_entityIds.2 ⟨entity, List.mem_of_mem_filter hmem, hid⟩)
  apply entityById_of_mem (distinct_savedDocument hinv htarget table) _ (idOf?_of_entityById hrow)
  apply List.mem_append_right
  rw [List.mem_filter]
  exact ⟨mem_of_entityById hrow, (isCreated_iff (idOf?_of_entityById hrow)).2 ⟨habsent, hunobserved, hunchanged⟩⟩

theorem save_unchanged_ids (hinv : StoreInv s) (hsame : target.entities table = (s.observed window).entities table) :
    idsOf (savedDocument s window target mergeNow) table = idsOf s.canonical table := by
  have hnothingNew : (target.entities table).filter (isCreated (s.canonical.entities table)
      ((buildChangedEntityBaseline (s.observed window) target).changed table)
      (entityIds ((s.observed window).entities table))) = [] := by
    rw [List.filter_eq_nil_iff]
    intro entity hmem hcreated
    cases hid : idOf? entity with
    | none => simp [isCreated, hid] at hcreated
    | some id =>
      refine ((isCreated_iff hid).1 hcreated).2.1 (mem_entityIds.2 ⟨entity, ?_, hid⟩)
      rw [← hsame]
      exact hmem
  have hrows : entityIds ((s.canonical.entities table).filterMap (mergeCanonicalRow (target.entities table)
      ((buildChangedEntityBaseline (s.observed window) target).changed table) mergeNow)) =
      entityIds (s.canonical.entities table) :=
    entityIds_filterMap fun row => mergeCanonicalRow_unmatched (changed_eq_nil hinv hsame)
  calc idsOf (savedDocument s window target mergeNow) table
      = entityIds ((s.canonical.entities table).filterMap (mergeCanonicalRow (target.entities table)
          ((buildChangedEntityBaseline (s.observed window) target).changed table) mergeNow) ++ []) := by
        rw [← hnothingNew]
        rfl
    _ = idsOf s.canonical table := by rw [List.append_nil, hrows]; rfl

theorem save_unchanged_row {row : Json} (hinv : StoreInv s) (htarget : DistinctIds target)
    (hsame : target.entities table = (s.observed window).entities table)
    (hrow : entityById id (s.canonical.entities table) = some row)
    (hobserved : entityById id ((s.observed window).entities table) = some row) :
    entityById id ((savedDocument s window target mergeNow).entities table) = some row := by
  have hnothing : entityIds ((buildChangedEntityBaseline (s.observed window) target).changed table) = [] :=
    changed_eq_nil hinv hsame
  have hkept : ∃ next, mergeCanonicalRow (target.entities table)
      ((buildChangedEntityBaseline (s.observed window) target).changed table) mergeNow row = some next ∧
      idOf? next = idOf? row := mergeCanonicalRow_unmatched hnothing
  obtain ⟨next, hmerged, -⟩ := hkept
  rw [entityById_savedDocument hinv htarget hrow, hmerged]
  by_contra hne
  obtain ⟨id', hid, hreplaced⟩ := mergeCanonicalRow_replaced hmerged fun h => hne (congrArg some h)
  obtain rfl : id' = id := Option.some.inj (hid.symm.trans (idOf?_of_entityById hrow))
  rw [← hreplaced.target, hsame, hobserved] at hne
  exact hne rfl

theorem save_settings (hinv : StoreInv s)
    (hchanged : (savedDocument s window target mergeNow).settings ≠ s.canonical.settings) :
    (s.observed window).settings = s.canonical.settings ∧
      sameSettings (s.observed window).settings target.settings = false := by
  apply acceptsSettings_observed
  by_contra haccepts
  apply hchanged
  obtain ⟨settings, hsettings⟩ := Option.isSome_iff_exists.1 hinv.hasSettings
  rw [savedDocument, mergeDataSnapshotsAt, if_neg haccepts, hsettings]
  rfl

theorem saveIsSafe (hinv : StoreInv s) (hedits : EditsWhatItObserved s (.save window target mergeNow)) :
    SaveIsSafe s window target mergeNow (savedDocument s window target mergeNow) where
  removed _ _ := save_removed hinv
  replaced _ _ _ _ := save_replaced hinv hedits.1
  gone table _ := save_gone (hedits.2 table)
  created _ _ _ := save_created hinv hedits.1
  distinct := distinct_savedDocument hinv hedits.1
  unchanged hrows hsettings := by
    refine ⟨?_, fun table => ⟨save_unchanged_ids hinv (hrows table), ?_⟩⟩
    · by_contra hchanged
      have hdiffers := (save_settings hinv hchanged).2
      rw [hsettings, sameSettings_refl] at hdiffers
      cases hdiffers
    · intro id row hrow hobserved
      exact save_unchanged_row hinv hedits.1 (hrows table) hrow hobserved
  settings hchanged := (save_settings hinv hchanged).1

end

/-! ### Every run -/

section
variable [DecidableEq Window] [Runtime] [RustRuntime]

def storeStep (s : SharedStore Window) : StoreEvent Window → Option (SharedStore Window)
  | .observe window snapshot => some { s with observed := Function.update s.observed window snapshot }
  | .save window target mergeNow =>
    some
      { canonical := savedDocument s window target mergeNow
        observed := Function.update s.observed window target
        used := fun table => s.used table ++ idsOf target table }

theorem storeInv_step {e : StoreEvent Window} {t : SharedStore Window} (hinv : StoreInv s)
    (hedits : EditsWhatItObserved s e) (hstep : storeStep s e = some t) : StoreInv t := by
  cases e with
  | observe window snapshot =>
    obtain rfl := Option.some.inj hstep
    refine ⟨hinv.distinct, ?_, hinv.canonicalUsed, ?_, hinv.hasSettings⟩
    · intro other
      by_cases hother : other = window
      · subst hother
        simpa using hedits.1
      · simpa [hother] using hinv.observedDistinct other
    · intro other table id hmem
      by_cases hother : other = window
      · subst hother
        exact hedits.2 table id (by simpa using hmem)
      · exact hinv.observedUsed other table id (by simpa [hother] using hmem)
  | save window target mergeNow =>
    obtain rfl := Option.some.inj hstep
    refine ⟨distinct_savedDocument hinv hedits.1, ?_, ?_, ?_, ?_⟩
    · intro other
      by_cases hother : other = window
      · subst hother
        simpa using hedits.1
      · simpa [hother] using hinv.observedDistinct other
    · intro table id hmem
      rcases mem_ids_savedDocument.1 hmem with ⟨row, hrow, hid, -⟩ | ⟨htarget, -⟩
      · exact List.mem_append_left _ (hinv.canonicalUsed table id (mem_entityIds.2 ⟨row, hrow, hid⟩))
      · exact List.mem_append_right _ htarget
    · intro other table id hmem
      by_cases hother : other = window
      · subst hother
        exact List.mem_append_right _ (by simpa using hmem)
      · exact List.mem_append_left _ (hinv.observedUsed other table id (by simpa [hother] using hmem))
    · exact settings_isSome_merged

theorem storeInv_reaches {canonical : DataSnapshot} (hdistinct : DistinctIds canonical)
    (hsettings : canonical.settings.isSome = true)
    (hrun : Reaches storeStep EditsWhatItObserved (SharedStore.init canonical) s) : StoreInv s :=
  hrun.invariant (storeInv_init hdistinct hsettings) fun _ _ _ => storeInv_step

/-- An id that is used and gone is used and gone after every further step. -/
theorem gone_step {e : StoreEvent Window} {t : SharedStore Window} (hedits : EditsWhatItObserved s e)
    (hstep : storeStep s e = some t) (hgone : id ∈ s.used table ∧ id ∉ idsOf s.canonical table) :
    id ∈ t.used table ∧ id ∉ idsOf t.canonical table := by
  cases e with
  | observe window snapshot =>
    obtain rfl := Option.some.inj hstep
    exact hgone
  | save window target mergeNow =>
    obtain rfl := Option.some.inj hstep
    exact ⟨List.mem_append_left _ hgone.1, save_gone (hedits.2 table) hgone.1 hgone.2⟩

/-- In every run no id occurs twice, a row that is gone never reappears, and every save is safe. -/
theorem snapshot_merge_safe {canonical : DataSnapshot} (hdistinct : DistinctIds canonical)
    (hsettings : canonical.settings.isSome = true)
    (hrun : Reaches storeStep EditsWhatItObserved (SharedStore.init canonical) s) :
    DistinctIds s.canonical ∧
    (∀ window table, ∀ id ∈ idsOf (s.observed window) table, id ∉ idsOf s.canonical table →
      ∀ t, Reaches storeStep EditsWhatItObserved s t → id ∉ idsOf t.canonical table) ∧
    (∀ window target mergeNow t, EditsWhatItObserved s (.save window target mergeNow) →
      storeStep s (.save window target mergeNow) = some t → SaveIsSafe s window target mergeNow t.canonical) := by
  have hinv := storeInv_reaches hdistinct hsettings hrun
  refine ⟨hinv.distinct, ?_, ?_⟩
  · intro window table id hobserved hgone t hlater
    exact (hlater.invariant ⟨hinv.observedUsed window table id hobserved, hgone⟩
      fun _ _ _ h hedits hstep => gone_step hedits hstep h).2
  · intro window target mergeNow t hedits hstep
    obtain rfl := Option.some.inj hstep
    exact saveIsSafe hinv hedits

end

end

/-! ### Two windows -/

/-- Times in the ISO form, integers as they are. -/
@[reducible] def plainRust : RustRuntime where
  parseRfc3339 s := (parseIso s).map fun ms => ms * 1000000
  numberToString n := toString n.num

/-- A task whose only file is at `uri` on this device. -/
def fileTask (uri : String) : Json :=
  .obj [("attachments", .arr [.obj [("id", .str "a1"), ("kind", .str "file"), ("uri", .str uri)]]),
    ("id", .str "t1"), ("rev", .num 1)]

def taskSnapshot (task : Json) : DataSnapshot where
  entities
    | .tasks => [task]
    | _ => []
  settings := some (.obj [])

def atStart : SharedStore Bool := SharedStore.init (taskSnapshot (fileTask ""))

theorem distinct_taskSnapshot (uri : String) : DistinctIds (taskSnapshot (fileTask uri)) := by
  intro table
  cases table
  · exact List.nodup_singleton "t1"
  all_goals exact List.nodup_nil

/-- One window notes where it has stored the file. -/
def downloadSave : StoreEvent Bool := .save true (taskSnapshot (fileTask "/files/a1")) 0

def afterDownload : SharedStore Bool :=
  let _ := isoRuntime
  let _ := plainRust
  { canonical := savedDocument atStart true (taskSnapshot (fileTask "/files/a1")) 0
    observed := Function.update atStart.observed true (taskSnapshot (fileTask "/files/a1"))
    used := fun table => atStart.used table ++ idsOf (taskSnapshot (fileTask "/files/a1")) table }

theorem edits_downloadSave : EditsWhatItObserved atStart downloadSave :=
  ⟨distinct_taskSnapshot _, fun table _ h => .inl (by cases table <;> exact h)⟩

theorem reaches_afterDownload :
    Reaches (@storeStep Bool _ isoRuntime plainRust) EditsWhatItObserved atStart afterDownload :=
  .step .refl edits_downloadSave rfl

/-- The other window saves what it observed, and the place of the file is gone. -/
theorem unchanged_save_reverts :
    let _ := isoRuntime
    let _ := plainRust
    Reaches (@storeStep Bool _ _ _) EditsWhatItObserved atStart afterDownload ∧
      ∃ t, storeStep afterDownload (.save false (afterDownload.observed false) 0) = some t ∧
        afterDownload.canonical.entities .tasks = [fileTask "/files/a1"] ∧
        t.canonical.entities .tasks = [fileTask ""] := by
  intro _ _
  exact ⟨reaches_afterDownload, _, rfl, by decide +kernel, by decide +kernel⟩

theorem snapshot_merge_safe_download :
    let _ := isoRuntime
    let _ := plainRust
    SaveIsSafe atStart true (taskSnapshot (fileTask "/files/a1")) 0 afterDownload.canonical :=
  let _ := isoRuntime
  let _ := plainRust
  (snapshot_merge_safe (distinct_taskSnapshot "") rfl .refl).2.2 true _ 0 afterDownload edits_downloadSave rfl

end Mindwtr.Desktop
