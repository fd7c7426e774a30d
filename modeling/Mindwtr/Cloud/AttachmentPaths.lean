import Mindwtr.Entity.Attachments

/-!
# Names of an attachment's bytes

An attachment names its bytes by a cloud key, which starts with `attachments/` (`buildCloudKey`,
`buildFileSyncGenerationCloudKey`). The server keeps them in a namespace's own directory of that name, at the key
without the prefix: the capture webhook strips it (`captureAudioStoragePath`), the apps put them at `/v1/<cloudKey>`
and the route strips it. Both ways go through `normalizeAttachmentRelativePath`.
-/

namespace Mindwtr.Cloud

open Mindwtr.Js

/-! ### Cloud keys -/

def attachmentsDirName : String := "attachments"

/-- `ATTACHMENTS_DIR_NAME` with its slash. -/
def attachmentsPrefix : String := attachmentsDirName ++ "/"

/-- What is before the first `c`. -/
def before (c : Char) (cs : List Char) : List Char := cs.takeWhile (· != c)

/-- What is after the last separator of either kind. -/
def leafOf (cs : List Char) : List Char := cs.rtakeWhile fun c => !(c == '/' || c.toNat == 92)

/-- `/\.[A-Za-z0-9]{1,8}$/` of the leaf, in lower case; ASCII letters only can match. -/
def extractExtension (value : Option Json) : List Char :=
  match asStr? value with
  | none => []
  | some s =>
    let leaf := leafOf (before '#' (before '?' s.toList))
    let extension := leaf.rtakeWhile isAsciiAlphanumeric
    if 1 ≤ extension.length ∧ extension.length ≤ 8 ∧
        (leaf.take (leaf.length - extension.length)).getLast? = some '.' then
      '.' :: extension.map Char.toLower
    else []

def attachmentExtension (attachment : Attachment) : List Char :=
  let extension := extractExtension attachment.title
  if extension.isEmpty then extractExtension attachment.uri else extension

def buildCloudKey (attachment : Attachment) : String :=
  attachmentsPrefix ++ attachment.id ++ String.ofList (attachmentExtension attachment)

section
variable [Runtime]

/-- `none` where it throws. -/
def buildFileSyncGenerationCloudKey (attachment : Attachment) (fileHash : String) : Option String :=
  let normalizedHash := Runtime.toLowerCase (trim fileHash)
  if isSha256Hex (some (.str normalizedHash)) then
    some (attachmentsPrefix ++ attachment.id ++ "." ++ normalizedHash ++
      String.ofList (attachmentExtension attachment))
  else none

/-! ### Paths -/

def attachmentPathMaxSegments : Nat := 16
def attachmentPathMaxLength : Nat := 512

/-- `ATTACHMENT_PATH_ALLOWLIST` -/
def isAllowedPathChar (c : Char) : Bool := isAsciiAlphanumeric c || c ∈ ['.', '_', '/', '-']

def decodeAttachmentPath (rawPath : String) : Option String :=
  (Runtime.decodeURIComponent rawPath).filter fun decoded => !decoded.toList.contains '%'

/-- Slashes at the ends of a path make empty segments, which are dropped like those of slashes in a row. -/
def pathSegments (path : List Char) : List (List Char) :=
  (path.splitOnP (· == '/')).filter fun segment => !segment.isEmpty

def isDotSegment (segment : List Char) : Bool := segment == ['.'] || segment == ['.', '.']

def joinSegments (segments : List (List Char)) : List Char := List.intercalate ['/'] segments

/-- The characters of a path that the server takes. -/
def acceptedSegments (path : List Char) : Option (List (List Char)) :=
  if path = [] ∨ attachmentPathMaxLength < path.length ∨ !path.all isAllowedPathChar then none
  else
    let segments := pathSegments path
    if segments = [] ∨ attachmentPathMaxSegments < segments.length ∨ segments.any isDotSegment then none
    else some segments

def normalizeAttachmentRelativePath (rawPath : String) : Option String :=
  (decodeAttachmentPath rawPath).bind fun decoded =>
    (acceptedSegments decoded.toList).map fun segments => String.ofList (joinSegments segments)

/-! ### Segments -/

end

/-- A segment is not empty and has no slash. -/
def IsSegment (segment : List Char) : Prop := segment ≠ [] ∧ ∀ c ∈ segment, c ≠ '/'

theorem isSegment_of_mem {path segment : List Char} (h : segment ∈ pathSegments path) : IsSegment segment := by
  obtain ⟨hmem, hne⟩ := List.mem_filter.1 h
  constructor
  · simpa using hne
  · intro c hc
    simpa using (mem_splitOnP hmem c hc).1

theorem pathSegments_cons {segment : List Char} (h : IsSegment segment) (path : List Char) :
    pathSegments (segment ++ '/' :: path) = segment :: pathSegments path := by
  have hslash : ∀ c ∈ segment, (c == '/') = false := by
    intro c hc
    simpa using h.2 c hc
  rw [pathSegments, List.splitOnP_append_cons_of_forall_mem hslash '/' (by simp), List.filter_cons_of_pos]
  · rfl
  · simpa using h.1

theorem pathSegments_join {segments : List (List Char)} (h : ∀ segment ∈ segments, IsSegment segment) :
    pathSegments (joinSegments segments) = segments := by
  unfold joinSegments
  induction segments with
  | nil => rfl
  | cons segment segments ih =>
    have hhead := h segment (by simp)
    cases segments with
    | nil =>
      have hslash : ∀ c ∈ segment, (c == '/') = false := by
        intro c hc
        simpa using hhead.2 c hc
      rw [List.intercalate_singleton, pathSegments, List.splitOnP_eq_singleton hslash, List.filter_cons_of_pos]
      · rfl
      · simpa using hhead.1
    | cons next segments =>
      rw [List.intercalate_cons_cons, List.append_assoc, List.singleton_append, pathSegments_cons hhead,
        ih fun s hs => h s (by simp [hs])]

theorem mem_joinSegments {segments : List (List Char)} {c : Char} (h : c ∈ joinSegments segments) :
    c = '/' ∨ ∃ segment ∈ segments, c ∈ segment := by
  unfold joinSegments at h
  induction segments with
  | nil => cases h
  | cons segment segments ih =>
    cases segments with
    | nil =>
      rw [List.intercalate_singleton] at h
      exact .inr ⟨segment, by simp, h⟩
    | cons next segments =>
      rw [List.intercalate_cons_cons, List.append_assoc, List.singleton_append] at h
      rcases List.mem_append.1 h with h | h
      · exact .inr ⟨segment, by simp, h⟩
      · rcases List.mem_cons.1 h with rfl | h
        · exact .inl rfl
        · refine (ih h).imp_right ?_
          rintro ⟨s, hs, hc⟩
          exact ⟨s, List.mem_cons_of_mem segment hs, hc⟩

theorem length_joinSegments (segments : List (List Char)) :
    (joinSegments segments).length + 1 ≤ (segments.map List.length).sum + max 1 segments.length := by
  unfold joinSegments
  induction segments with
  | nil => simp
  | cons segment segments ih =>
    cases segments with
    | nil => simp
    | cons next segments =>
      rw [List.intercalate_cons_cons, List.append_assoc, List.singleton_append]
      simp only [List.length_append, List.length_cons, List.map_cons, List.sum_cons] at ih ⊢
      omega

theorem length_splitOnP (p : Char → Bool) (path : List Char) :
    ((path.splitOnP p).map List.length).sum + (path.splitOnP p).length = path.length + 1 := by
  induction path with
  | nil => rfl
  | cons c path ih =>
    rw [List.splitOnP_cons_eq_if_modifyHead]
    split
    · simp only [List.map_cons, List.sum_cons, List.length_nil, List.length_cons]
      omega
    · obtain ⟨head, tail, hsplit⟩ := List.exists_cons_of_ne_nil (List.splitOnP_ne_nil p path)
      rw [hsplit] at ih ⊢
      simp only [List.modifyHead_cons, List.map_cons, List.sum_cons, List.length_cons] at ih ⊢
      omega

theorem length_filter_nonempty (segments : List (List Char)) :
    ((segments.filter fun s => !s.isEmpty).map List.length).sum = (segments.map List.length).sum := by
  induction segments with
  | nil => rfl
  | cons segment segments ih => cases segment <;> simp [ih]

theorem length_join_pathSegments (path : List Char) : (joinSegments (pathSegments path)).length ≤ path.length := by
  have hjoin := length_joinSegments (pathSegments path)
  have hsplit := length_splitOnP (· == '/') path
  have hsum := length_filter_nonempty (path.splitOnP (· == '/'))
  have hcount := List.length_filter_le (fun s => !s.isEmpty) (path.splitOnP (· == '/'))
  have hpos := List.length_pos_of_ne_nil (List.splitOnP_ne_nil (· == '/') path)
  unfold pathSegments at hjoin ⊢
  omega

theorem acceptedSegments_eq_some {path : List Char} {segments : List (List Char)} :
    acceptedSegments path = some segments ↔
      segments = pathSegments path ∧ path.length ≤ attachmentPathMaxLength ∧ path.all isAllowedPathChar = true ∧
        segments ≠ [] ∧ segments.length ≤ attachmentPathMaxSegments ∧ segments.any isDotSegment = false := by
  unfold acceptedSegments
  by_cases hpath : path = []
  · subst hpath
    constructor
    · intro h
      simp at h
    · rintro ⟨rfl, -, -, hne, -⟩
      exact absurd rfl hne
  · by_cases hchars : attachmentPathMaxLength < path.length ∨ (!path.all isAllowedPathChar) = true
    · rw [if_pos (.inr hchars)]
      constructor
      · intro h
        cases h
      · rintro ⟨-, hlength, hall, -⟩
        rcases hchars with h | h
        · omega
        · rw [hall] at h
          cases h
    · rw [if_neg (by simp only [hpath, false_or]; exact hchars)]
      obtain ⟨hlength, hall⟩ := not_or.1 hchars
      dsimp only
      by_cases hsegments : pathSegments path = [] ∨ attachmentPathMaxSegments < (pathSegments path).length ∨
          (pathSegments path).any isDotSegment = true
      · rw [if_pos hsegments]
        constructor
        · intro h
          cases h
        · rintro ⟨rfl, -, -, hne, hcount, hdots⟩
          rcases hsegments with h | h | h
          · exact absurd h hne
          · omega
          · rw [hdots] at h
            cases h
      · rw [if_neg hsegments]
        obtain ⟨hne, hrest⟩ := not_or.1 hsegments
        obtain ⟨hcount, hdots⟩ := not_or.1 hrest
        constructor
        · intro h
          obtain rfl := Option.some.inj h
          exact ⟨rfl, by omega, by simpa using hall, hne, by omega, by simpa using hdots⟩
        · rintro ⟨rfl, -⟩
          rfl

/-- An accepted path is accepted again as it is. -/
theorem acceptedSegments_join {path : List Char} {segments : List (List Char)}
    (h : acceptedSegments path = some segments) : acceptedSegments (joinSegments segments) = some segments := by
  obtain ⟨rfl, hlength, hall, hne, hcount, hdots⟩ := acceptedSegments_eq_some.1 h
  have hall_segments : ∀ segment ∈ pathSegments path, IsSegment segment := fun segment => isSegment_of_mem
  have hsegments := pathSegments_join hall_segments
  apply acceptedSegments_eq_some.2
  refine ⟨hsegments.symm, (length_join_pathSegments path).trans hlength, ?_, hne, hcount, hdots⟩
  rw [List.all_eq_true] at hall ⊢
  intro c hc
  rcases mem_joinSegments hc with rfl | ⟨segment, hsegment, hc⟩
  · decide
  · exact hall c (mem_splitOnP (List.mem_filter.1 hsegment).1 c hc).2

theorem allowed_of_accepted {path : List Char} {segments : List (List Char)}
    (h : acceptedSegments path = some segments) : ∀ c ∈ joinSegments segments, isAllowedPathChar c = true := by
  have hjoin := (acceptedSegments_eq_some.1 (acceptedSegments_join h)).2.2.1
  exact List.all_eq_true.1 hjoin

section
variable [Runtime]

/-! ### Where the bytes go -/

def captureAudioStoragePath (cloudKey : String) : String :=
  let cs := cloudKey.toList
  if attachmentsPrefix.toList.isPrefixOf cs then String.ofList (cs.drop attachmentsPrefix.length) else cloudKey

/-- Below the directory of a namespace's attachments, the path that the webhook stores a capture at. -/
def capturedPath (cloudKey : String) : Option String :=
  normalizeAttachmentRelativePath (captureAudioStoragePath cloudKey)

/-- The path that `PUT /v1/<cloudKey>` stores at, from a client whose base URL ends in `/v1`. -/
def uploadedPath (baseUrl cloudKey : String) : Option String :=
  (Runtime.urlPathname (baseUrl ++ "/" ++ cloudKey)).bind fun pathname =>
    let route := "/v1/attachments/".toList
    if route.isPrefixOf pathname.toList then
      normalizeAttachmentRelativePath (String.ofList (pathname.toList.drop route.length))
    else none

end

end Mindwtr.Cloud
