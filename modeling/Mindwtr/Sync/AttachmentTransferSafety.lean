import Mindwtr.Sync.AttachmentTransfer

/-!
# What the transfer of attachments calls

Every call goes to the front of a trace with its answer. Looking at a file, an upload and a download are `Licensed`
by the answers before them, whatever the calls answer.
-/

namespace Mindwtr.Sync

open Mindwtr.Js Mindwtr.Lib Transaction

structure TransferEvent where
  call : TransferCall
  answer : Except TransferFault call.op.Answer

abbrev TransferTrace := List TransferEvent

abbrev TransferPost (A : Type) := A → TransferVars → TransferTrace → Prop

abbrev TransferPass.answered (p : TransferPass) (op : TransferOp) (answer : op.Answer) : TransferEvent :=
  ⟨⟨p.original, op⟩, .ok answer⟩

abbrev TransferAnswers := (call : TransferCall) → Except TransferFault call.op.Answer

def tracePort (call : TransferCall) (answers : TransferAnswers) (trace : TransferTrace) :
    Except TransferFault call.op.Answer × TransferTrace :=
  (answers call, ⟨call, answers call⟩ :: trace)

section
variable {p : TransferPass} {here : Bool} {base s : TransferTrace} {attachment : Attachment} {v : TransferVars}
  {expectedHash : Option String} {A B : Type}

/-- A live file that is not skipped. -/
def Admitted (p : TransferPass) (past : TransferTrace) : Prop :=
  isLiveFile p.original = true ∧ p.answered (.policy .shouldSkip p.original) false ∈ past

/-- The probe of the file, where it has a path. -/
def Probed (p : TransferPass) (existsLocally : Bool) (past : TransferTrace) : Prop :=
  existsLocally = false ∧ p.localPath = "" ∨
    p.answered (.getLocalFilePresence p.localPath p.original)
      (if existsLocally then .present else .confirmedNotFound) ∈ past

theorem Admitted.later (h : Admitted p base) (hs : base <:+ s) : Admitted p s :=
  ⟨h.1, hs.subset h.2⟩

theorem Probed.later (h : Probed p here base) (hs : base <:+ s) : Probed p here s := h.imp id fun h => hs.subset h

/-- The file was found under a path that may be read. -/
structure MayRead (p : TransferPass) (past : TransferTrace) : Prop where
  admitted : Admitted p past
  probed : Probed p true past
  contained : ∃ attachment, p.options.canUploadFrom p.localPath attachment = true

theorem MayRead.later (h : MayRead p base) (hs : base <:+ s) : MayRead p s :=
  ⟨h.admitted.later hs, h.probed.later hs, h.contained⟩

/-- The path is the file's, which may be read, or a download was made. -/
def MayLook (p : TransferPass) (path : String) (past : TransferTrace) : Prop :=
  path = p.localPath ∧ MayRead p past ∨
    ∃ attachment expectation outcome, p.answered (.onDownload attachment expectation) outcome ∈ past

theorem MayRead.look (h : MayRead p s) : MayLook p p.localPath s := .inl ⟨rfl, h⟩

theorem MayLook.later {path : String} (h : MayLook p path base) (hs : base <:+ s) : MayLook p path s :=
  h.imp (fun h => ⟨h.1, h.2.later hs⟩) fun ⟨a, e, o, h⟩ => ⟨a, e, o, hs.subset h⟩

/-- A snapshot of the file. -/
def Taken (p : TransferPass) (snapshot : AttachmentUploadSnapshot) (past : TransferTrace) : Prop :=
  ∃ attachment, p.answered (.createUploadSnapshot p.localPath attachment) (some snapshot) ∈ past

variable [Runtime]

/-- A snapshot is uploaded as what it was taken for. -/
def UploadLicensed (p : TransferPass) (path : String) (past : TransferTrace) : Option AttachmentUploadSnapshot → Prop
  | none => path = p.localPath ∧ p.options.requireUploadSnapshot = false
  | some snapshot =>
    path = snapshot.sourcePath ∧ isSha256Hex (some (.str (normalizeHash snapshot.fileHash))) = true ∧
      Taken p snapshot past ∧
      (isPendingUpload p.original = true →
        (recordedHash p.original).map normalizeHash = some (normalizeHash snapshot.fileHash))

/-- A download replaces a file only after the merge, when the file was hashed between two equal stats, is not what the
attachment records, and nothing but the gate was asked since. -/
def DownloadLicensed (p : TransferPass) (attachment : Attachment) (past : TransferTrace) :
    AttachmentDownloadExpectation → Prop
  | .absent => Probed p false past
  | .present sha256 =>
    p.options.contentChangePhase = some .postMerge ∧ truthy attachment.fileHash = true ∧
      isRecordedHash attachment sha256 = false ∧ ∃ stat earlier,
        past = p.answered (.policy .shouldDownload attachment) true ::
          p.answered (.getLocalFileStat p.localPath attachment) (some stat) ::
          p.answered (.computeLocalFileHash p.localPath attachment) (some sha256) ::
          p.answered (.getLocalFileStat p.localPath attachment) (some stat) :: earlier

def TransferOp.Licensed (p : TransferPass) (past : TransferTrace) : TransferOp → Prop
  | .getLocalFileStat path _ | .computeLocalFileHash path _ => MayLook p path past
  | .createUploadSnapshot path _ => path = p.localPath ∧ MayRead p past
  | .onUpload _ path snapshot => MayRead p past ∧ p.options.deferUploads = false ∧ UploadLicensed p path past snapshot
  | .onDownload attachment expectation => Admitted p past ∧ DownloadLicensed p attachment past expectation
  | _ => True

def Licensed (options : AttachmentTransferLifecycleOptions) (trace : TransferTrace) : Prop :=
  ∀ event past, event :: past <:+ trace → event.call.op.Licensed ⟨options, event.call.original⟩ past

/-! ### Steps of a pass -/

/-- What holds between the calls of a pass that has come to `base`. -/
def Since (options : AttachmentTransferLifecycleOptions) (base s : TransferTrace) : Prop :=
  Licensed options s ∧ base <:+ s

theorem Since.call {op : TransferOp} (hs : Since p.options base s) (hop : op.Licensed p s)
    (answer : Except TransferFault op.Answer) : Since p.options base (⟨⟨p.original, op⟩, answer⟩ :: s) := by
  refine ⟨fun event past h => ?_, hs.2.trans (List.suffix_cons _ _)⟩
  rcases List.suffix_cons_iff.1 h with heq | h
  · cases heq
    exact hop
  · exact hs.1 event past h

abbrev SafePass (p : TransferPass) (base : TransferTrace) (Q : TransferPost A) : Transfer A → TransferVars →
    TransferTrace → Prop :=
  Safe tracePort (Since p.options base) Q fun _ _ _ => True

abbrev KeptFrom (p : TransferPass) (base : TransferTrace) : Transfer A → TransferVars → TransferTrace → Prop :=
  SafePass p base fun _ _ _ => True

/-- The calls of the step are licensed. -/
def Kept (p : TransferPass) (base : TransferTrace) (x : Transfer A) : Prop :=
  ∀ v s, Since p.options base s → KeptFrom p base x v s

/-- A step that is taken now may build on everything so far. -/
theorem KeptFrom.since {x : Transfer A} (h : KeptFrom p s x v s) (hs : base <:+ s) : KeptFrom p base x v s :=
  h.mono (fun _ ht => ⟨ht.1, hs.trans ht.2⟩) (fun _ _ _ => id) fun _ _ _ => id

theorem kept_pure {a : A} : Kept p base (pure a) := fun _ _ hs => safe_pure hs trivial

theorem kept_throw {fault : TransferFault} : Kept p base (throw fault : Transfer A) :=
  fun _ _ hs => safe_throw hs trivial

theorem kept_modify {f : TransferVars → TransferVars} : Kept p base (modify f) := fun _ _ hs => safe_modify hs trivial

theorem kept_working : Kept p base working := fun _ _ hs => ⟨hs, trivial⟩

theorem Kept.bind {x : Transfer A} {f : A → Transfer B} (hx : Kept p base x) (hf : ∀ a, Kept p base (f a)) :
    Kept p base (x >>= f) := fun v s hs => safe_bind (hx v s hs) fun a v t ht _ => hf a v t ht

theorem Kept.tryCatch {x : Transfer A} {handler : TransferFault → Transfer A} (hx : Kept p base x)
    (hh : ∀ fault, Kept p base (handler fault)) : Kept p base (tryCatch x handler) :=
  fun v s hs => safe_tryCatch (hx v s hs) fun fault v t ht _ => hh fault v t ht

theorem Kept.ite {c : Prop} [Decidable c] {x y : Transfer A} (hx : c → Kept p base x) (hy : Kept p base y) :
    Kept p base (if c then x else y) := by
  split
  · exact hx ‹c›
  · exact hy

theorem Kept.orReport {x : Transfer A} {otherwise : A} (hx : Kept p base x) : Kept p base (orReport x otherwise) :=
  hx.tryCatch fun _ => .ite (fun _ => kept_throw) kept_pure

theorem safe_working_bind {f : Attachment → Transfer A} {Q : TransferPost A}
    (h : SafePass p base Q (f v.attachment) v s) : SafePass p base Q (working >>= f) v s := h

theorem safe_ask (op : TransferOp) {Q : TransferPost op.Answer} {R : TransferPost TransferFault}
    (hs : Since p.options base s) (hop : op.Licensed p s)
    (hok : ∀ answer, Q answer v (p.answered op answer :: s))
    (herror : ∀ fault, R fault v (⟨⟨p.original, op⟩, .error fault⟩ :: s)) :
    Safe tracePort (Since p.options base) Q R (ask p op) v s := by
  refine safe_call (TransferCall.mk p.original op) hs fun answers => ⟨hs.call hop _, ?_⟩
  simp only [tracePort]
  cases answers ⟨p.original, op⟩ with
  | ok answer => exact hok answer
  | error fault => exact herror fault

theorem kept_ask {op : TransferOp} (hop : ∀ s, base <:+ s → op.Licensed p s := by exact fun _ _ => trivial) :
    Kept p base (ask p op) :=
  fun _ s hs => safe_ask op hs (hop s hs.2) (fun _ => trivial) fun _ => trivial

theorem settle_kept : ∀ result, Kept p base (settle result)
  | .ok _ => kept_pure
  | .error _ => kept_throw

theorem getLocalFileStat_kept {path : String} (hlook : MayLook p path base) : Kept p base (getLocalFileStat p path) :=
  kept_working.bind fun _ => .tryCatch (kept_ask fun _ => hlook.later) fun _ => kept_pure

theorem computeLocalFileHash_kept (hread : MayRead p base) : Kept p base (computeLocalFileHash p attachment) :=
  .ite (fun _ => kept_ask fun _ => hread.look.later) kept_pure

theorem assertUploadStatAllowed_kept (stat : LocalFileStat) : Kept p base (assertUploadStatAllowed p stat) := by
  unfold assertUploadStatAllowed
  split
  · exact kept_throw
  · exact kept_pure

theorem recordStat_kept (stat : LocalFileStat) (hash : Option String) : Kept p base (recordStat stat hash) :=
  kept_working.bind fun _ => .ite (fun _ => kept_modify) kept_pure

theorem refreshContentStat_kept {path : String} (hlook : MayLook p path base) (verify : Bool) :
    Kept p base (refreshContentStat p path verify) := by
  refine .ite (fun _ => (getLocalFileStat_kept hlook).bind fun stat => ?_) kept_pure
  cases stat with
  | none => exact kept_pure
  | some stat =>
    refine kept_working.bind fun attachment => .ite (fun _ => Kept.bind ?_ fun hash => ?_) kept_modify
    · exact .tryCatch (kept_ask fun _ => hlook.later) fun _ => kept_pure
    · exact (getLocalFileStat_kept hlook).bind fun _ => .ite (fun _ => kept_modify) kept_pure

/-- What follows a download may look at the file. -/
theorem safe_download_bind {expectation : AttachmentDownloadExpectation} {f : TransferOutcome → Transfer A}
    (hs : Since p.options base s) (hop : Admitted p s ∧ DownloadLicensed p attachment s expectation)
    (hf : ∀ outcome base, (∀ path, MayLook p path base) → Kept p base (f outcome)) :
    KeptFrom p base (ask p (.onDownload attachment expectation) >>= f) v s :=
  safe_bind (Q := fun _ _ t => ∀ path, MayLook p path t) (safe_ask (.onDownload _ _) hs hop
    (fun outcome _ => .inr ⟨_, _, outcome, .head _⟩) fun _ => trivial) fun outcome v t ht hlook =>
      (hf outcome t hlook v t ⟨ht.1, List.suffix_rfl⟩).since ht.2

theorem refreshDownloaded_kept (hlook : ∀ path, MayLook p path base) (path : String) :
    Kept p base (refreshDownloaded p path) := by
  refine kept_working.bind fun attachment => ?_
  exact .ite (fun _ => refreshContentStat_kept (hlook _) _) kept_pure

/-! ### Uploads -/

structure MayUpload (p : TransferPass) (expectedHash : Option String) (past : TransferTrace) : Prop
    extends MayRead p past where
  now : p.options.deferUploads = false
  expected : isPendingUpload p.original = true → expectedHash = recordedHash p.original ∧ expectedHash.isSome

theorem onUpload_kept {path : String} {snapshot : Option AttachmentUploadSnapshot} (hread : MayRead p base)
    (hnow : p.options.deferUploads = false) (hop : ∀ s, base <:+ s → UploadLicensed p path s snapshot) :
    Kept p base (onUpload p path snapshot) := by
  refine kept_working.bind fun attachment => Kept.bind ?_ fun outcome => kept_modify.bind fun _ => settle_kept _
  exact kept_ask fun s hs => ⟨hread.later hs, hnow, hop s hs⟩

theorem uploadSnapshot_kept {snapshot : AttachmentUploadSnapshot} (hmay : MayUpload p expectedHash base)
    (htaken : Taken p snapshot base) : Kept p base (uploadSnapshot p snapshot expectedHash) := by
  simp only [uploadSnapshot]
  split
  · exact kept_pure
  · rename_i hcheck
    simp only [Bool.or_eq_true, Bool.not_eq_true', not_or, Bool.not_eq_false, Option.any_eq_true,
      Option.map_eq_some_iff] at hcheck
    have hexpected : isPendingUpload p.original = true →
        (recordedHash p.original).map normalizeHash = some (normalizeHash snapshot.fileHash) := by
      intro hpending
      obtain ⟨hrecorded, hsome⟩ := hmay.expected hpending
      obtain ⟨expected, hexpected⟩ := Option.isSome_iff_exists.1 hsome
      rw [← hrecorded, hexpected, Option.map_some, Option.some.injEq]
      by_contra hne
      exact hcheck.2 ⟨_, ⟨expected, hexpected, rfl⟩, .inr (by simpa using Ne.symm hne)⟩
    refine Kept.bind (onUpload_kept hmay.toMayRead hmay.now ?_) fun uploaded => ?_
    · exact fun s hs => ⟨rfl, hcheck.1, htaken.imp fun _ h => hs.subset h, hexpected⟩
    · cases uploaded with
      | false => exact kept_pure
      | true => exact kept_modify.bind fun _ => kept_pure

theorem disposing_kept {snapshot : AttachmentUploadSnapshot} {x : Transfer Bool} (hx : Kept p base x) :
    Kept p base (disposing p snapshot x) :=
  ((hx.bind fun _ => kept_pure).tryCatch fun _ => kept_pure).bind fun result =>
    (Kept.tryCatch kept_ask fun _ => kept_pure).bind fun _ => settle_kept result

theorem admitLocalFile_kept (hread : MayRead p base) : Kept p base (admitLocalFile p) := by
  refine .ite (fun _ => (getLocalFileStat_kept hread.look).bind fun stat => ?_) kept_pure
  cases stat with
  | none => exact kept_pure
  | some stat => exact assertUploadStatAllowed_kept stat

/-- What follows a snapshot knows that it was taken. -/
theorem takeSnapshot_bind {f : Option AttachmentUploadSnapshot → Transfer A} (hread : MayRead p base)
    (hnone : Kept p base (f none))
    (hsome : ∀ snapshot s, base <:+ s → Taken p snapshot s → Kept p s (f (some snapshot))) :
    Kept p base (takeSnapshot p >>= f) := by
  refine fun v s hs => safe_bind (Q := fun taken _ t => ∀ snapshot, taken = some snapshot → Taken p snapshot t)
    (safe_bind (admitLocalFile_kept hread v s hs) fun _ v t ht _ => ?_) fun taken v t ht htaken => ?_
  · split
    · refine safe_working_bind ?_
      exact safe_ask (.createUploadSnapshot _ _) ht ⟨rfl, hread.later ht.2⟩ (fun taken snapshot h =>
        ⟨v.attachment, by rw [h]; exact .head _⟩) fun _ => trivial
    · exact safe_pure ht nofun
  · cases taken with
    | none => exact hnone v t ht
    | some snapshot => exact (hsome snapshot t ht.2 (htaken _ rfl) v t ⟨ht.1, List.suffix_rfl⟩).since ht.2

theorem attemptUpload_kept (hmay : MayUpload p expectedHash base) : Kept p base (attemptUpload p expectedHash) := by
  refine takeSnapshot_bind hmay.toMayRead ?_ fun snapshot s hs htaken => disposing_kept
    (uploadSnapshot_kept ⟨hmay.toMayRead.later hs, hmay.now, hmay.expected⟩ htaken)
  dsimp only
  split
  · exact kept_pure
  · rename_i hrequire
    exact onUpload_kept hmay.toMayRead hmay.now fun _ _ => ⟨rfl, by simpa using hrequire⟩

theorem gatedUpload_kept {record : Transfer Unit} (hmay : MayUpload p expectedHash base)
    (hrecord : Kept p base record) : Kept p base (gatedUpload p expectedHash record) := by
  refine kept_working.bind fun _ => .bind kept_ask fun _ => .ite (fun _ => Kept.orReport ?_) kept_pure
  refine (attemptUpload_kept hmay).bind fun uploaded => ?_
  cases uploaded with
  | false => exact kept_pure
  | true => exact hrecord.bind fun _ => kept_pure

theorem provePendingUploadIdentity_kept (hread : MayRead p base) : Kept p base (provePendingUploadIdentity p) := by
  refine .ite (fun _ => takeSnapshot_bind hread kept_pure fun snapshot s _ _ => disposing_kept ?_) kept_pure
  refine .ite (fun _ => kept_pure) ?_
  exact (assertUploadStatAllowed_kept _).bind fun _ => .bind kept_modify fun _ => kept_pure

/-! ### Downloads -/

theorem received_kept (hlook : ∀ path, MayLook p path base) (outcome : TransferOutcome) :
    Kept p base (received p outcome) := by
  refine .bind kept_modify fun _ => (settle_kept _).bind fun transferred => .ite (fun _ => ?_) kept_pure
  exact .bind kept_modify fun _ => refreshDownloaded_kept hlook _

theorem attemptDownload_safe {expectation : AttachmentDownloadExpectation} (hadmitted : Admitted p base)
    (hs : Since p.options base s)
    (hdown : DownloadLicensed p v.attachment (p.answered (.policy .shouldDownload v.attachment) true :: s)
      expectation) : KeptFrom p base (attemptDownload p expectation) v s := by
  refine safe_working_bind ?_
  refine safe_bind (Q := fun go w t => w = v ∧ t = p.answered (.policy .shouldDownload v.attachment) go :: s)
    (safe_ask (.policy _ _) hs trivial (fun _ => ⟨rfl, rfl⟩) fun _ => trivial) fun go w t ht ⟨hw, hpast⟩ => ?_
  subst hw hpast
  cases go with
  | false => exact kept_pure _ _ ht
  | true =>
    refine safe_tryCatch (R := fun _ _ _ => True) (safe_working_bind ?_) fun fault v t ht _ => ?_
    · exact safe_download_bind ht ⟨hadmitted.later ht.2, hdown⟩ fun outcome _ hlook => received_kept hlook outcome
    · exact Kept.ite (fun _ => kept_throw) kept_pure v t ht

theorem recoverPending_kept (hadmitted : Admitted p base) (hprobed : Probed p false base) :
    Kept p base (recoverPending p expectedHash) := by
  refine kept_working.bind fun attachment => Kept.orReport fun v s hs => ?_
  refine safe_download_bind hs ⟨hadmitted.later hs.2, hprobed.later hs.2⟩ fun outcome _ hlook => ?_
  refine (settle_kept _).bind fun transferred => .ite (fun _ => ?_) kept_pure
  exact .bind kept_modify fun _ => refreshDownloaded_kept hlook _

/-! ### A pending candidate -/

theorem uploadPending_kept (hmay : MayUpload p expectedHash base) : Kept p base (uploadPending p expectedHash) := by
  refine Kept.bind (gatedUpload_kept hmay ?_) fun _ => kept_pure
  exact .bind kept_modify fun _ => .ite (fun _ => refreshContentStat_kept hmay.look _) kept_pure

theorem checkPending_kept (hmay : MayUpload p expectedHash base) : Kept p base (checkPending p expectedHash) := by
  refine (getLocalFileStat_kept hmay.look).bind fun stat => ?_
  cases stat with
  | none => exact kept_pure
  | some stat =>
    refine kept_working.bind fun attachment => Kept.bind (.ite (fun _ => kept_pure) ?_) fun check => ?_
    · exact (computeLocalFileHash_kept hmay.toMayRead).bind fun _ => kept_pure
    · exact .ite (fun _ => (recordStat_kept _ _).bind fun _ => uploadPending_kept hmay) kept_pure

/-- A candidate is pending under the hash that it recorded. -/
theorem transferPending_safe {mayRead : Bool} (hnow : p.options.deferUploads = false)
    (hadmitted : Admitted p base) (hprobed : Probed p here base)
    (hread : mayRead = true → MayRead p base) (hfile : v.attachment.fileHash = p.original.fileHash)
    (hs : Since p.options base s) : KeptFrom p base (transferPending p here mayRead) v s := by
  have hmay (hmayRead : mayRead = true) (hsha : isSha256Hex ((recordedHash v.attachment).map .str) = true) :
      MayUpload p (recordedHash v.attachment) base := by
    refine ⟨hread hmayRead, hnow, fun _ => ⟨by rw [recordedHash, hfile, recordedHash], ?_⟩⟩
    cases h : recordedHash v.attachment with
    | none =>
      rw [h] at hsha
      cases hsha
    | some hash => rfl
  refine safe_working_bind ?_
  extract_lets expectedHash go
  split
  · rename_i hsha
    have hgo (recovers : Bool) (hrecovers : recovers = true → here = false) : Kept p base (go recovers) := by
      refine .ite (fun h => ?_) (.ite (fun h => ?_) (.ite (fun h => ?_) kept_pure))
      · exact recoverPending_kept hadmitted (hrecovers h ▸ hprobed)
      · exact uploadPending_kept (hmay (Bool.and_eq_true_iff.1 h).1 hsha)
      · exact checkPending_kept (hmay (Bool.and_eq_true_iff.1 h).1 hsha)
    cases here with
    | true => exact hgo false nofun v s hs
    | false =>
      refine (kept_working.bind fun _ => Kept.bind ?_ fun recovers => hgo recovers fun _ => rfl) v s hs
      exact kept_ask
  · exact kept_pure _ _ hs

theorem firstUpload_kept (hmay : MayUpload p none base) : Kept p base (firstUpload p) := by
  refine gatedUpload_kept hmay (.bind kept_modify fun _ => .ite (fun _ => Kept.bind ?_ fun _ => ?_) kept_pure)
  · refine kept_working.bind fun attachment => .ite (fun _ => Kept.bind ?_ fun _ => kept_modify) kept_pure
    exact .tryCatch (computeLocalFileHash_kept hmay.toMayRead) fun _ => kept_pure
  · exact refreshContentStat_kept hmay.look _

/-! ### Changes of the content -/

theorem safe_getLocalFileStat (hread : MayRead p base) (hs : Since p.options base s) :
    SafePass p base (fun stat w t => w = v ∧ ∀ found, stat = some found →
      t = p.answered (.getLocalFileStat p.localPath v.attachment) (some found) :: s)
      (getLocalFileStat p p.localPath) v s := by
  refine safe_working_bind ?_
  exact safe_tryCatch (R := fun _ w _ => w = v) (safe_ask (.getLocalFileStat _ _) hs (hread.look.later hs.2)
    (fun stat => ⟨rfl, fun found h => by rw [h]⟩) fun _ => rfl) fun _ w t ht hw => safe_pure ht ⟨hw, nofun⟩

theorem transferChange_safe {phase : ContentChangePhase} {stat : LocalFileStat} {hash : String}
    {earlier : TransferTrace} (hread : MayRead p base) (hphase : p.options.contentChangePhase = some phase)
    (hpending : isPendingUpload p.original = true → p.options.deferUploads = true)
    (hrecorded : isRecordedHash v.attachment hash = false)
    (hpast : s = p.answered (.computeLocalFileHash p.localPath v.attachment) (some hash) ::
      p.answered (.getLocalFileStat p.localPath v.attachment) (some stat) :: earlier) (hs : Since p.options base s) :
    KeptFrom p base (transferChange p phase stat hash) v s := by
  refine safe_working_bind ?_
  cases phase with
  | prepare =>
    dsimp only
    split
    · exact kept_modify _ _ hs
    · rename_i hdefer
      have hmay : MayUpload p (some hash) base := ⟨hread, by simpa using hdefer, fun h => absurd (hpending h) hdefer⟩
      exact ((gatedUpload_kept hmay kept_modify).bind fun _ => kept_pure) v s hs
  | postMerge =>
    dsimp only
    split
    · exact kept_modify _ _ hs
    · rename_i hfile
      refine safe_bind (safe_getLocalFileStat hread hs) fun restat w t ht ⟨hw, hrestat⟩ => ?_
      subst hw
      split
      · rename_i hsame
        refine attemptDownload_safe hread.admitted ht ⟨hphase, by simpa using hfile, hrecorded, stat, earlier, ?_⟩
        rw [hrestat stat hsame, hpast]
      · exact kept_pure _ _ ht

theorem safe_checkAttachmentContentChange {stat : LocalFileStat} {unhashable : Prop} [Decidable unhashable]
    (hread : MayRead p base) (hs : Since p.options base s) :
    SafePass p base (fun check w t => w = v ∧ ∀ hash, check.changed = true → check.hash = some hash →
        isRecordedHash v.attachment hash = false ∧
          t = p.answered (.computeLocalFileHash p.localPath v.attachment) (some hash) :: s)
      (checkAttachmentContentChange v.attachment stat
        (if unhashable then pure none else computeLocalFileHash p v.attachment)) v s := by
  unfold checkAttachmentContentChange computeLocalFileHash
  split
  · exact safe_pure hs ⟨rfl, nofun⟩
  · refine safe_bind (Q := fun hash w t => w = v ∧ ∀ found, hash = some found →
      t = p.answered (.computeLocalFileHash p.localPath v.attachment) (some found) :: s) ?_
      fun hash w t ht ⟨hw, hpast⟩ => ?_
    · split
      · exact safe_pure hs ⟨rfl, nofun⟩
      · split
        · exact safe_ask (.computeLocalFileHash _ _) hs (hread.look.later hs.2)
            (fun hash => ⟨rfl, fun found h => by rw [h]⟩) fun _ => trivial
        · exact safe_pure hs ⟨rfl, nofun⟩
    · refine safe_pure ht ⟨hw, fun found hchanged hfound => ?_⟩
      dsimp only at hchanged hfound
      rw [hfound] at hchanged
      exact ⟨by simpa using hchanged, hpast found (Option.filter_eq_some_iff.1 hfound).1⟩

theorem detectContentChange_kept {phase : ContentChangePhase} (hread : MayRead p base)
    (hphase : p.options.contentChangePhase = some phase)
    (hpending : isPendingUpload p.original = true → p.options.deferUploads = true) :
    Kept p base (detectContentChange p phase) := by
  intro v s hs
  refine safe_bind (safe_getLocalFileStat hread hs) fun stat w t ht ⟨hw, hstat⟩ => ?_
  subst hw
  cases stat with
  | none => exact kept_pure _ _ ht
  | some stat =>
    refine safe_bind (Q := fun _ u t' => u = w ∧ t' = t) ?_ fun _ u t' _ ⟨hu, ht'⟩ => ?_
    · unfold assertUploadStatAllowed
      split
      · exact safe_throw ht trivial
      · exact safe_pure ht ⟨rfl, rfl⟩
    · subst hu ht'
      refine safe_working_bind (safe_get_bind ?_)
      refine safe_bind (safe_checkAttachmentContentChange hread ht) fun check u' t ht ⟨hu, hcheck⟩ => ?_
      subst hu
      split
      · split
        · exact kept_modify _ _ ht
        · exact recordStat_kept _ _ _ _ ht
      · rename_i hash hhash
        refine safe_modify_bind ?_
        split
        · rename_i hchanged
          obtain ⟨hrecorded, hpast⟩ := hcheck hash hchanged hhash
          exact transferChange_safe hread hphase hpending hrecorded (by rw [hpast, hstat stat rfl]) ht
        · exact recordStat_kept _ _ _ _ ht

/-! ### Runs -/

theorem transferSettled_kept {mayRead : Bool} (hadmitted : Admitted p base) (hprobed : Probed p here base)
    (hread : mayRead = true → MayRead p base)
    (hpending : isPendingUpload p.original = true → p.options.deferUploads = true) :
    Kept p base (transferSettled p here mayRead) := by
  refine Kept.bind (kept_working.bind fun attachment => .ite (fun h => ?_) kept_pure) fun uploaded =>
    .ite (fun _ => Kept.bind ?_ fun _ => kept_working.bind fun attachment => .ite (fun h => ?_) kept_pure) kept_pure
  · simp only [Bool.and_eq_true, Bool.not_eq_true'] at h
    exact firstUpload_kept ⟨hread h.1.2, h.2, fun hp => by rw [hpending hp] at h; cases h.2⟩
  · intro v s hs
    refine safe_working_bind ?_
    split
    · rename_i h
      simp only [Bool.and_eq_true, Bool.not_eq_true'] at h
      obtain ⟨⟨-, rfl⟩, -⟩ := h
      exact attemptDownload_safe hadmitted hs ((hprobed.later hs.2).later (List.suffix_cons _ _))
    · exact kept_pure _ _ hs
  · simp only [Bool.and_eq_true] at h
    split
    · rename_i hphase
      exact detectContentChange_kept (hread h.1.2) hphase hpending
    · exact kept_pure

theorem transferLocated_safe (hadmitted : Admitted p s) (hprobed : Probed p here s) (hs : Licensed p.options s)
    (hv : v.attachment = p.original) : KeptFrom p s (transferLocated p here) v s := by
  refine safe_bind (Q := fun _ w _ => w.attachment.fileHash = p.original.fileHash) ?_
    fun _ w t ht hfile => safe_working_bind ?_
  · unfold reconcileLocalStatus
    extract_lets nextStatus
    refine safe_working_bind ?_
    split
    · exact ⟨⟨hs, List.suffix_refl s⟩, by rw [← hv]⟩
    · exact safe_pure ⟨hs, List.suffix_refl s⟩ (by rw [hv])
  · extract_lets mayRead
    have hread (h : mayRead = true) : MayRead p s := by
      obtain ⟨rfl, hcontained⟩ := Bool.and_eq_true_iff.1 h
      exact ⟨hadmitted, hprobed, _, hcontained⟩
    split
    · rename_i h
      simp only [Bool.and_eq_true, Bool.not_eq_true'] at h
      exact transferPending_safe h.2 hadmitted hprobed hread hfile ht
    · rename_i h
      refine (Kept.bind (kept_working.bind fun attachment => .ite (fun h => Kept.orReport ?_) kept_pure) fun _ =>
        transferSettled_kept hadmitted hprobed hread fun hp => by simpa [hp] using h) w t ht
      simp only [Bool.and_eq_true] at h
      exact (provePendingUploadIdentity_kept (hread h.1.2)).bind fun _ => .ite (fun _ => kept_modify) kept_pure

attribute [local irreducible] transferLocated in
theorem transferAttachment_safe (hadmitted : Admitted p s) (hs : Since p.options base s)
    (hv : v.attachment = p.original) : KeptFrom p base (transferAttachment p) v s := by
  refine safe_bind (Q := fun presence w t => w = v ∧ Admitted p t ∧ ∀ here : Bool,
    presence = (if here then .present else .confirmedNotFound) → Probed p here t) ?_
    fun presence w t ht ⟨hw, hadmitted, hprobed⟩ => ?_
  · unfold probe
    split
    · rename_i hpath
      exact safe_pure hs ⟨rfl, hadmitted, Bool.rec (fun _ => .inl ⟨rfl, hpath⟩) nofun⟩
    · have hlater (event : TransferEvent) : Admitted p (event :: s) := hadmitted.later (List.suffix_cons _ _)
      exact safe_tryCatch (R := fun _ w t => w = v ∧ Admitted p t) (safe_ask (.getLocalFilePresence _ _) hs trivial
        (fun presence => ⟨rfl, hlater _, fun here h => .inr (by rw [h]; exact .head _)⟩)
        fun _ => ⟨rfl, hlater _⟩) fun _ w t ht hr => safe_pure ht ⟨hr.1, hr.2, Bool.rec nofun nofun⟩
  · subst hw
    have hlocated (here : Bool) (h : Probed p here t) : KeptFrom p base (transferLocated p here) w t :=
      (transferLocated_safe hadmitted h ht.1 hv).since ht.2
    cases presence with
    | unreadable => exact kept_pure _ _ ht
    | present => exact hlocated true (hprobed true rfl)
    | confirmedNotFound =>
      dsimp only
      split
      · exact hlocated false (hprobed false rfl)
      · exact kept_pure _ _ ht

attribute [local irreducible] transferAttachment in
theorem runAttachmentTransferLifecycle_safe (options : AttachmentTransferLifecycleOptions)
    (attachments : List Attachment) (patches : JsMap Attachment) (v : TransferVars) (hs : Since options [] s) :
    Safe tracePort (Since options []) (fun _ _ _ => True) (fun _ _ _ => True)
      (runAttachmentTransferLifecycle options attachments patches) v s := by
  induction attachments generalizing patches v s with
  | nil => exact safe_pure hs trivial
  | cons original rest ih =>
    rw [runAttachmentTransferLifecycle]
    refine safe_bind (Q := fun _ _ _ => True) (safe_ask (p := ⟨options, original⟩) .beforeEachAttachment hs trivial
      (fun _ => trivial) fun _ => trivial) fun _ v t ht _ => ?_
    refine safe_bind (Q := fun skipped _ t => skipped = false → Admitted ⟨options, original⟩ t) ?_
      fun skipped v t ht hadmitted => ?_
    · unfold isSkipped
      split
      · rename_i hlive
        exact safe_ask (p := ⟨options, original⟩) (.policy _ _) ht trivial
          (fun _ h => ⟨hlive, by rw [h]; exact .head _⟩) fun _ => trivial
      · exact safe_pure ht nofun
    · split
      · exact ih _ _ ht
      · rename_i hskipped
        have hpass := transferAttachment_safe (p := ⟨options, original⟩) (v := ⟨original, false, v.unhashableStats⟩)
          (hadmitted (by simpa using hskipped)) ht rfl
        refine safe_modify_bind ?_
        refine safe_bind hpass fun _ w t ht _ => ?_
        refine safe_get_bind ?_
        exact ih _ _ ht

section
variable (options : AttachmentTransferLifecycleOptions) (attachments : List Attachment) (v : TransferVars)

/-- At every point of a run, whatever its calls answer. -/
abbrev Throughout (I : TransferTrace → Prop) : Prop := Safe tracePort I (fun _ _ _ => True) (fun _ _ _ => True)
  (runAttachmentTransferLifecycle options attachments .empty) v []

theorem transfers_licensed {I : TransferTrace → Prop} (hI : ∀ trace, Licensed options trace → I trace) :
    Throughout options attachments v I :=
  (runAttachmentTransferLifecycle_safe (s := []) options attachments .empty v
    ⟨fun _ _ h => (by cases List.suffix_nil.1 h), List.suffix_rfl⟩).mono (fun _ h => hI _ h.1) (fun _ _ _ => id)
    fun _ _ _ => id

/-- A file is looked at or snapshotted only when it was found under a path that may be read, or looked at after a
download. -/
theorem reads_licensed : Throughout options attachments v fun trace =>
    (∀ original attachment path answer past,
      ⟨⟨original, .getLocalFileStat path attachment⟩, answer⟩ :: past <:+ trace →
        MayLook ⟨options, original⟩ path past) ∧
    (∀ original attachment path answer past,
      ⟨⟨original, .computeLocalFileHash path attachment⟩, answer⟩ :: past <:+ trace →
        MayLook ⟨options, original⟩ path past) ∧
    ∀ original attachment path answer past,
      ⟨⟨original, .createUploadSnapshot path attachment⟩, answer⟩ :: past <:+ trace →
        path = (TransferPass.mk options original).localPath ∧ MayRead ⟨options, original⟩ past :=
  transfers_licensed options attachments v fun _ h =>
    ⟨fun _ _ _ _ _ => h _ _, fun _ _ _ _ _ => h _ _, fun _ _ _ _ _ => h _ _⟩

/-- A file is uploaded only when it was found under a path that may be read and uploads are not deferred, and a snapshot
only as what it was taken for. -/
theorem uploads_licensed : Throughout options attachments v fun trace =>
    ∀ original attachment path snapshot answer past,
      ⟨⟨original, .onUpload attachment path snapshot⟩, answer⟩ :: past <:+ trace →
        MayRead ⟨options, original⟩ past ∧ options.deferUploads = false ∧
          UploadLicensed ⟨options, original⟩ path past snapshot :=
  transfers_licensed options attachments v fun _ h _ _ _ _ _ _ => h _ _

/-- A download is for a file that is not there or, after the merge, for one whose content was just looked at and is not
what the attachment records. -/
theorem downloads_licensed : Throughout options attachments v fun trace =>
    ∀ original attachment expectation answer past,
      ⟨⟨original, .onDownload attachment expectation⟩, answer⟩ :: past <:+ trace →
        Admitted ⟨options, original⟩ past ∧ DownloadLicensed ⟨options, original⟩ attachment past expectation :=
  transfers_licensed options attachments v fun _ h _ _ _ _ _ => h _ _

end

end

end Mindwtr.Sync
