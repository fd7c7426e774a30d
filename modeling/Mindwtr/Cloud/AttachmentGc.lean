import Mindwtr.Cloud.AttachmentPaths

/-!
# The collector of orphan attachments

`garbageCollectOrphanAttachments` of `server-attachments.ts`. It keeps the files whose path below the directory of
the attachments is a cloud key of the document, but a cloud key starts with `attachments/` and the path is the key
without it. So the files of live attachments go like all others once they are older than the grace period
(`attachmentGc_correct_iff`).
-/

namespace Mindwtr.Cloud

open Mindwtr.Js

def orphanAttachmentGcGraceMs : Int := 5 * 60 * 1000

/-- The part of a namespace's document that names attachments. -/
structure NamespaceData where
  tasks : List Task
  projects : List Project

/-- A file below the directory of a namespace's attachments. -/
structure StoredFile where
  path : String
  mtimeMs : Int
deriving DecidableEq

/-- The attachments of the owners that are not purged. -/
def ownedAttachments (data : NamespaceData) : List Attachment :=
  ((data.tasks.filter fun task => !truthy task.purgedAt).flatMap fun task => task.attachments.getD []) ++
    (data.projects.filter fun project => !truthy project.purgedAt).flatMap fun project => project.attachments.getD []

/-- The cloud key of a file attachment that is not deleted. -/
def liveCloudKey (attachment : Attachment) : Option String :=
  if attachment.kind ≠ some (.str "file") ∨ truthy attachment.deletedAt then none
  else (asStr? attachment.cloudKey).filter (· != "")

def isOld (now : Int) (file : StoredFile) : Bool := file.mtimeMs ≤ now - orphanAttachmentGcGraceMs

section
variable [Runtime]

def collectReferencedAttachmentCloudKeys (data : NamespaceData) : List String :=
  (ownedAttachments data).filterMap fun attachment =>
    (liveCloudKey attachment).bind normalizeAttachmentRelativePath

/-- What the visit of a file decides. -/
def isKept (referenced : List String) (now : Int) (file : StoredFile) : Bool :=
  match normalizeAttachmentRelativePath file.path with
  | none => true
  | some relativePath => referenced.contains relativePath || !isOld now file

structure GcReport where
  deleted : Nat
  kept : Nat
  scanned : Nat
  /-- The files that are left. -/
  files : List StoredFile

/-- A pass over files that can all be read and removed. -/
def garbageCollectOrphanAttachments (data : NamespaceData) (files : List StoredFile) (now : Int) : GcReport :=
  let referenced := collectReferencedAttachmentCloudKeys data
  let left := files.filter (isKept referenced now)
  { deleted := files.length - left.length, kept := left.length, scanned := files.length, files := left }

/-! ### What the collector is for -/

def IsKeyOf (attachment : Attachment) (cloudKey : String) : Prop :=
  cloudKey = buildCloudKey attachment ∨ ∃ fileHash, buildFileSyncGenerationCloudKey attachment fileHash = some cloudKey

/-- The server puts the bytes of a cloud key at this path, by one of its two ways. -/
def StoresAt (baseUrl cloudKey path : String) : Prop :=
  capturedPath cloudKey = some path ∨ uploadedPath baseUrl cloudKey = some path

def StoredByServer (baseUrl : String) (file : StoredFile) : Prop :=
  ∃ attachment cloudKey, IsKeyOf attachment cloudKey ∧ StoresAt baseUrl cloudKey file.path

def UsesBuiltKeys (data : NamespaceData) : Prop :=
  ∀ attachment ∈ ownedAttachments data, ∀ cloudKey, liveCloudKey attachment = some cloudKey →
    IsKeyOf attachment cloudKey

/-- The file has the bytes of a live attachment. -/
def HoldsLiveBytes (baseUrl : String) (data : NamespaceData) (file : StoredFile) : Prop :=
  ∃ attachment ∈ ownedAttachments data, ∃ cloudKey, liveCloudKey attachment = some cloudKey ∧
    StoresAt baseUrl cloudKey file.path

structure GcIsCorrect (baseUrl : String) (data : NamespaceData) (files : List StoredFile) (now : Int) : Prop where
  keepsReferenced : ∀ file ∈ files, HoldsLiveBytes baseUrl data file →
    file ∈ (garbageCollectOrphanAttachments data files now).files
  deletesOrphans : ∀ file ∈ files, isOld now file = true → ¬HoldsLiveBytes baseUrl data file →
    file ∉ (garbageCollectOrphanAttachments data files now).files

/-- Percent decoding changes nothing but percent signs. -/
structure DecodesPlainly : Prop where
  empty : Runtime.decodeURIComponent "" = some ""
  append : ∀ s t : String, '%' ∉ s.toList →
    Runtime.decodeURIComponent (s ++ t) = (Runtime.decodeURIComponent t).map (s ++ ·)

variable {data : NamespaceData} {files : List StoredFile} {now : Int} {baseUrl : String}

theorem DecodesPlainly.plain (h : DecodesPlainly) {s : String} (hs : '%' ∉ s.toList) :
    Runtime.decodeURIComponent s = some s := by
  have happend := h.append s "" hs
  rw [h.empty] at happend
  simpa using happend

/-- A stored path is one that is left as it is. -/
theorem normalize_stored (hdecode : DecodesPlainly) {rawPath path : String}
    (h : normalizeAttachmentRelativePath rawPath = some path) : normalizeAttachmentRelativePath path = some path := by
  obtain ⟨decoded, -, hmap⟩ := Option.bind_eq_some_iff.1 h
  obtain ⟨segments, hsegments, rfl⟩ := Option.map_eq_some_iff.1 hmap
  have hpercent : '%' ∉ (String.ofList (joinSegments segments)).toList := by
    rw [String.toList_ofList]
    intro hmem
    exact absurd (allowed_of_accepted hsegments '%' hmem) (by decide)
  rw [normalizeAttachmentRelativePath, decodeAttachmentPath, hdecode.plain hpercent, Option.filter_some,
    if_pos (by simpa using hpercent), Option.bind_some, String.toList_ofList, acceptedSegments_join hsegments]
  rfl

theorem normalize_of_storesAt (hdecode : DecodesPlainly) {cloudKey path : String}
    (h : StoresAt baseUrl cloudKey path) : normalizeAttachmentRelativePath path = some path := by
  rcases h with h | h
  · exact normalize_stored hdecode h
  · obtain ⟨pathname, -, hroute⟩ := Option.bind_eq_some_iff.1 h
    dsimp only at hroute
    split at hroute
    · exact normalize_stored hdecode hroute
    · cases hroute

theorem isKept_stored (hdecode : DecodesPlainly) {file : StoredFile} (h : StoredByServer baseUrl file)
    (referenced : List String) : isKept referenced now file = (referenced.contains file.path || !isOld now file) := by
  obtain ⟨attachment, cloudKey, -, hstores⟩ := h
  unfold isKept
  rw [normalize_of_storesAt hdecode hstores]

theorem mem_collected (hdecode : DecodesPlainly) {file : StoredFile} (hmem : file ∈ files)
    (h : StoredByServer baseUrl file) : file ∈ (garbageCollectOrphanAttachments data files now).files ↔
      file.path ∈ collectReferencedAttachmentCloudKeys data ∨ isOld now file = false := by
  simp only [garbageCollectOrphanAttachments, List.mem_filter, hmem, true_and, isKept_stored hdecode h,
    Bool.or_eq_true, List.contains_iff_mem, Bool.not_eq_true']

/-! ### Cloud keys as paths -/

def BeginsWithPrefix (path : String) : Prop :=
  path = attachmentsDirName ∨ ∃ rest, path = attachmentsPrefix ++ rest

theorem exists_prefix_of_isKeyOf {attachment : Attachment} {cloudKey : String} (h : IsKeyOf attachment cloudKey) :
    ∃ rest, cloudKey = attachmentsPrefix ++ rest := by
  rcases h with rfl | ⟨fileHash, h⟩
  · exact ⟨_, by rw [buildCloudKey, String.append_assoc]⟩
  · unfold buildFileSyncGenerationCloudKey at h
    dsimp only at h
    split at h
    · obtain rfl := Option.some.inj h
      exact ⟨_, by simp only [String.append_assoc]; rfl⟩
    · cases h

theorem beginsWithPrefix_of_normalize (hdecode : DecodesPlainly) {rest path : String}
    (h : normalizeAttachmentRelativePath (attachmentsPrefix ++ rest) = some path) : BeginsWithPrefix path := by
  obtain ⟨decoded, hdecoded, hmap⟩ := Option.bind_eq_some_iff.1 h
  obtain ⟨segments, hsegments, rfl⟩ := Option.map_eq_some_iff.1 hmap
  obtain ⟨hraw, -⟩ := Option.filter_eq_some_iff.1 hdecoded
  have hpercent : '%' ∉ attachmentsPrefix.toList := by decide +kernel
  rw [hdecode.append attachmentsPrefix rest hpercent] at hraw
  obtain ⟨tail, -, rfl⟩ := Option.map_eq_some_iff.1 hraw
  have hdir : IsSegment attachmentsDirName.toList := by
    simp [IsSegment, attachmentsDirName]
  have hpath : (attachmentsPrefix ++ tail).toList = attachmentsDirName.toList ++ '/' :: tail.toList := by
    simp [attachmentsPrefix, attachmentsDirName]
  obtain rfl := (acceptedSegments_eq_some.1 hsegments).1
  rw [hpath, pathSegments_cons hdir]
  cases htail : pathSegments tail.toList with
  | nil =>
    left
    rfl
  | cons segment segments =>
    right
    refine ⟨String.ofList (joinSegments (segment :: segments)), ?_⟩
    rw [joinSegments, List.intercalate_cons_cons, List.append_assoc]
    apply String.toList_inj.1
    simp [attachmentsPrefix, attachmentsDirName, joinSegments]

/-- What the collector looks paths up in has keys only, each with its prefix. -/
theorem referenced_beginsWithPrefix (hdecode : DecodesPlainly) (hkeys : UsesBuiltKeys data) {path : String}
    (h : path ∈ collectReferencedAttachmentCloudKeys data) : BeginsWithPrefix path := by
  obtain ⟨attachment, hmem, hpath⟩ := List.mem_filterMap.1 h
  obtain ⟨cloudKey, hlive, hnormal⟩ := Option.bind_eq_some_iff.1 hpath
  obtain ⟨rest, rfl⟩ := exists_prefix_of_isKeyOf (hkeys attachment hmem cloudKey hlive)
  exact beginsWithPrefix_of_normalize hdecode hnormal

/-! ### When the collector is right -/

theorem gcIsCorrect_iff (hdecode : DecodesPlainly) (hstored : ∀ file ∈ files, StoredByServer baseUrl file) :
    GcIsCorrect baseUrl data files now ↔ ∀ file ∈ files, isOld now file = true →
      (HoldsLiveBytes baseUrl data file ↔ file.path ∈ collectReferencedAttachmentCloudKeys data) := by
  have hleft : ∀ file ∈ files, isOld now file = true →
      (file ∈ (garbageCollectOrphanAttachments data files now).files ↔
        file.path ∈ collectReferencedAttachmentCloudKeys data) := by
    intro file hmem hold
    rw [mem_collected hdecode hmem (hstored file hmem), hold]
    simp
  constructor
  · intro hcorrect file hmem hold
    rw [← hleft file hmem hold]
    constructor
    · exact hcorrect.keepsReferenced file hmem
    · intro hfile
      by_contra hholds
      exact hcorrect.deletesOrphans file hmem hold hholds hfile
  · intro hexact
    constructor
    · intro file hmem hholds
      by_cases hold : isOld now file = true
      · rw [hleft file hmem hold]
        exact (hexact file hmem hold).1 hholds
      · rw [mem_collected hdecode hmem (hstored file hmem)]
        exact .inr (by simpa using hold)
    · intro file hmem hold hholds hfile
      rw [hleft file hmem hold] at hfile
      exact hholds ((hexact file hmem hold).2 hfile)

/-- The collector is right about the files of a namespace when an old file's path is a live cloud key exactly if
the file is a live attachment's. No stored path but one below a further `attachments/` is a cloud key, and without
such paths that means: when no file of a live attachment is older than the grace period. -/
theorem attachmentGc_correct_iff (hdecode : DecodesPlainly) (hkeys : UsesBuiltKeys data)
    (hstored : ∀ file ∈ files, StoredByServer baseUrl file) :
    (GcIsCorrect baseUrl data files now ↔ ∀ file ∈ files, isOld now file = true →
      (HoldsLiveBytes baseUrl data file ↔ file.path ∈ collectReferencedAttachmentCloudKeys data)) ∧
    ((∀ file ∈ files, ¬BeginsWithPrefix file.path) → (GcIsCorrect baseUrl data files now ↔
      ∀ file ∈ files, HoldsLiveBytes baseUrl data file → isOld now file = false)) := by
  refine ⟨gcIsCorrect_iff hdecode hstored, ?_⟩
  intro hplain
  rw [gcIsCorrect_iff hdecode hstored]
  have hunreferenced : ∀ file ∈ files, file.path ∉ collectReferencedAttachmentCloudKeys data :=
    fun file hmem href => hplain file hmem (referenced_beginsWithPrefix hdecode hkeys href)
  constructor
  · intro hexact file hmem hholds
    by_contra hold
    exact hunreferenced file hmem ((hexact file hmem (by simpa using hold)).mp hholds)
  · intro hyoung file hmem hold
    constructor
    · intro hholds
      rw [hyoung file hmem hholds] at hold
      cases hold
    · intro href
      exact absurd href (hunreferenced file hmem)

end

/-! ### A photo -/

/-- The stored form of dates, and URLs of one host. -/
@[reducible] def hostRuntime : Runtime :=
  { isoRuntime with urlPathname := fun url => some (String.ofList (url.toList.drop "https://host".length)) }

def photo : Attachment where
  id := "a1"
  kind := some (.str "file")
  title := some (.str "Photo.JPG")
  cloudKey := some (.str "attachments/a1.jpg")

def photoTask : NamespaceData where
  tasks := [{ id := "t1", attachments := some [photo] }]
  projects := []

/-- The file of the photo, ten minutes after the first of January 1970 began. -/
def photoFile (mtimeMs : Int) : StoredFile := ⟨"a1.jpg", mtimeMs⟩

theorem storesAt_photo : @StoresAt hostRuntime "https://host/v1" "attachments/a1.jpg" "a1.jpg" :=
  let _ := hostRuntime
  .inr (by decide +kernel)

theorem holdsLiveBytes_photo (mtimeMs : Int) :
    @HoldsLiveBytes hostRuntime "https://host/v1" photoTask (photoFile mtimeMs) :=
  let _ := hostRuntime
  ⟨photo, by decide +kernel, "attachments/a1.jpg", by decide +kernel, storesAt_photo⟩

/-- The bytes of a live attachment are gone at the first pass after the grace period. -/
theorem gc_deletes_photo :
    let _ := hostRuntime
    HoldsLiveBytes "https://host/v1" photoTask (photoFile 0) ∧
      (garbageCollectOrphanAttachments photoTask [photoFile 0] 600000).files = [] :=
  ⟨holdsLiveBytes_photo 0, by decide +kernel⟩

theorem decodesPlainly_host : @DecodesPlainly hostRuntime :=
  let _ := hostRuntime
  ⟨rfl, fun _ _ _ => rfl⟩

theorem usesBuiltKeys_photo : @UsesBuiltKeys hostRuntime photoTask := by
  let _ := hostRuntime
  intro attachment hmem cloudKey hlive
  have hphoto : attachment = photo := by simpa [photoTask, ownedAttachments, truthy] using hmem
  subst hphoto
  have hkey : liveCloudKey photo = some (buildCloudKey photo) := by decide +kernel
  exact .inl (Option.some.inj (hlive.symm.trans hkey))

theorem attachmentGc_correct_iff_photo :
    let _ := hostRuntime
    GcIsCorrect "https://host/v1" photoTask [photoFile 500000] 600000 :=
  let _ := hostRuntime
  ((attachmentGc_correct_iff decodesPlainly_host usesBuiltKeys_photo (fun file hmem => by
    obtain rfl := List.mem_singleton.mp hmem
    exact ⟨photo, "attachments/a1.jpg", .inl (by decide +kernel), storesAt_photo⟩)).1).mpr (fun file hmem hold => by
    obtain rfl := List.mem_singleton.mp hmem
    exact absurd hold (by decide +kernel))

end Mindwtr.Cloud
