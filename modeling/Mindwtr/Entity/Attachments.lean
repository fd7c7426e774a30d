import Mindwtr.Entity.Types

/-!
# Attachments

What the sync merge lets through of an attachment: `sanitizeAttachmentUriForSyncMerge` and its
siblings of `sync-normalization.ts`, `sanitizeMergedAttachmentUri` of `sync.ts` and `isSha256Hex` of
`attachment-hash.ts`. A URI that reaches a parent directory under any number of decodings, up to a
limit, is dropped; the two files differ in the limit only.
-/

namespace Mindwtr

open Mindwtr.Js

def isAsciiLetter (c : Char) : Bool := ('a' ≤ c && c ≤ 'z') || ('A' ≤ c && c ≤ 'Z')

def isAsciiAlphanumeric (c : Char) : Bool := isAsciiLetter c || c.isDigit

/-- `/(?:^|[\\/])\.\.(?:[\\/]|$)/`: a segment between separators is `..`. -/
def hasTraversalSegment (value : String) : Bool :=
  (value.toList.splitOnP fun c => c == '/' || c.toNat == 92).contains ['.', '.']

/-- `/^[A-Za-z][A-Za-z0-9+.-]*:/`. -/
def hasUrlScheme (value : String) : Bool :=
  match value.toList with
  | c :: rest =>
    isAsciiLetter c &&
      (rest.dropWhile fun c => isAsciiAlphanumeric c || c ∈ ['+', '.', '-']).head? == some ':'
  | [] => false

/-- The characters of a storage name: a letter or digit, then letters, digits and `marks`. -/
def isStorageName (marks : List Char) (name : List Char) : Bool :=
  match name with
  | c :: rest => isAsciiAlphanumeric c && rest.all fun c => isAsciiAlphanumeric c || c ∈ marks
  | [] => false

/-- `ATTACHMENT_CLOUD_KEY_PATTERN`. -/
def isAttachmentCloudKey (value : String) : Bool :=
  let attachments := "attachments/".toList
  let cloudkit := "cloudkit:".toList
  let cs := value.toList
  if attachments.isPrefixOf cs then
    let name := cs.drop attachments.length
    let base := name.takeWhile (· != '.')
    isStorageName ['_', '-'] base &&
      match name.drop base.length with
      | [] => true
      | _ :: extension => isStorageName ['.', '_', '-'] extension && extension.length ≤ 128
  else cloudkit.isPrefixOf cs && isStorageName ['_', '-'] (cs.drop cloudkit.length)

/-- `/^[0-9a-f]{64}$/i`. -/
def isSha256Hex (value : Option Json) : Bool :=
  match value with
  | some (.str s) => s.toList.length == 64 &&
      s.toList.all fun c => c.isDigit || ('a' ≤ c && c ≤ 'f') || ('A' ≤ c && c ≤ 'F')
  | _ => false

def sanitizeAttachmentFileHashForSyncMerge (value : Option Json) : Option Json :=
  if isSha256Hex value then value else none

section
variable [Runtime]

def enqueueCandidate (queue : List String) (candidate : Option String) : List String :=
  match candidate with
  | none => queue
  | some candidate => if candidate = "" ∨ candidate ∈ queue then queue else queue ++ [candidate]

/-- What one turn of the loop adds for the candidate it looks at. -/
def expandCandidate (queue : List String) (current : String) : List String :=
  let queue := enqueueCandidate queue (Runtime.decodeURIComponent current)
  let trimmed := trim current
  if ['/', '/'].isPrefixOf trimmed.toList then
    enqueueCandidate queue (Runtime.urlPathname ("file:" ++ trimmed))
  else if hasUrlScheme trimmed then enqueueCandidate queue (Runtime.urlPathname trimmed)
  else queue

/-- The loop over the queue, from `index` for `fuel` turns. -/
def traversalCandidates : Nat → Nat → List String → List String
  | 0, _, queue => queue
  | fuel + 1, index, queue =>
    match queue[index]? with
    | none => queue
    | some current => traversalCandidates fuel (index + 1) (expandCandidate queue current)

/-- The file has its own limit on the number of decoded candidates. -/
def containsAttachmentTraversalSegment (decodeLimit : Nat) (value : String) : Bool :=
  (traversalCandidates decodeLimit 0 [value]).any hasTraversalSegment

/-- A trimmed URI without a NUL or a traversal segment. -/
def safeAttachmentUri (decodeLimit : Nat) (value : Option Json) : Option String :=
  match asStr? value with
  | none => none
  | some s =>
    let trimmed := trim s
    if trimmed = "" ∨ trimmed.toList.contains (Char.ofNat 0) then none
    else if containsAttachmentTraversalSegment decodeLimit trimmed then none
    else some trimmed

def sanitizeAttachmentUriForSyncMerge (value : Option Json) : Option String := safeAttachmentUri 4 value

def sanitizeMergedAttachmentUri (value : Option Json) : Option String := safeAttachmentUri 32 value

def sanitizeAttachmentCloudKeyForSyncMerge (value : Option Json) : Option Json :=
  match safeAttachmentUri 4 value with
  | some key => if isAttachmentCloudKey key then some (.str key) else none
  | none => none

def normalizeAttachmentForSyncMerge (attachment : Attachment) : Attachment :=
  if attachment.kind = some (.str "file") then
    { attachment with
      uri := some (.str ((sanitizeAttachmentUriForSyncMerge attachment.uri).getD ""))
      cloudKey := sanitizeAttachmentCloudKeyForSyncMerge attachment.cloudKey
      fileHash := sanitizeAttachmentFileHashForSyncMerge attachment.fileHash }
  else attachment

def normalizeAttachmentsForSyncMerge (attachments : Option (List Attachment)) :
    Option (List Attachment) :=
  attachments.map fun l => l.map normalizeAttachmentForSyncMerge

end

example : hasTraversalSegment "attachments/../keys" = true ∧ hasTraversalSegment "notes..txt" = false := by
  decide +kernel

end Mindwtr
