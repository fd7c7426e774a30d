import Mindwtr.Entity.Types
import Mindwtr.Js.Map
import Mindwtr.Js.Runtime
import Mindwtr.Js.Throw

/-!
# Link attachments

`link-attachments.ts` of the MCP server. The inputs are the complete list of the links an item should have: an input
is written into the link of its id, or else into the first live link with its uri, and a live link that no input
matches becomes a tombstone.
-/

namespace Mindwtr.Mcp

open Mindwtr.Js

structure LinkAttachmentInput where
  id : Option String := none
  title : Option String := none
  uri : String
deriving DecidableEq, Repr

structure NormalizedLinkInput where
  id : Option String
  title : String
  uri : String
  preservedNetworkShare : Bool
deriving DecidableEq, Repr

def isSlash (c : Char) : Bool := c == '/' || c == '\\'

def defaultTitle (uri : String) : String :=
  let trimmed := uri.toList.rdropWhile isSlash
  let lastSegment := trimmed.rtakeWhile fun c => !isSlash c
  let withoutQuery := lastSegment.takeWhile fun c => c != '?' && c != '#'
  String.ofList (if withoutQuery = [] then trimmed else withoutQuery)

/-! ### Network shares -/

def isSchemeChar (c : Char) : Bool := c.isAlphanum || c == '+' || c == '.' || c == '-'

/-- What `/^[a-z][a-z0-9+.-]*:/i` matches. -/
def schemeOf (uri : List Char) : Option (List Char) :=
  if uri.head?.any Char.isAlpha ∧ (uri.dropWhile isSchemeChar).head? = some ':' then
    some (uri.takeWhile isSchemeChar ++ [':'])
  else none

section
variable [Runtime]

def isNetworkShareUri (uri : String) : Bool :=
  match schemeOf uri.toList with
  | none => (uri.toList.take 2).length == 2 && (uri.toList.take 2).all isSlash
  | some scheme =>
    if Runtime.toLowerCase (String.ofList scheme) ≠ "file:" then false
    else
      let normalized := (uri.toList.drop scheme.length).map fun c => if c = '\\' then '/' else c
      if ['/', '/'].isPrefixOf normalized then
        let host := Runtime.toLowerCase (String.ofList ((normalized.drop 2).takeWhile (· != '/')))
        (host != "" && host != "localhost") || ['/', '/'].isPrefixOf ((normalized.drop 2).dropWhile (· != '/'))
      else false

/-! ### Inputs -/

structure NormalizeState where
  seenUris : List String := []
  seenIds : List String := []
  normalized : List NormalizedLinkInput := []

def normalizeInput (mayPreserveNetworkShare : Option String → String → Bool) (state : NormalizeState)
    (input : LinkAttachmentInput) : Except JsError NormalizeState :=
  let trimmedUri := trim input.uri
  let id := (input.id.map trim).filter (· != "")
  let networkShare := isNetworkShareUri trimmedUri
  let preservedNetworkShare := networkShare && mayPreserveNetworkShare id input.uri
  -- a share is kept byte for byte
  let uri := if preservedNetworkShare then input.uri else trimmedUri
  if trimmedUri = "" then .error (.error "Link attachment uri must not be empty")
  else if networkShare && !preservedNetworkShare then
    .error (.error ("Link attachment uri must not point at a network share: " ++ trimmedUri))
  else if id.any state.seenIds.contains then
    .error (.error ("Duplicate link attachment id: " ++ id.getD ""))
  else if id.isNone && state.seenUris.contains uri then .ok state
  else
    .ok
      { seenUris := uri :: state.seenUris
        seenIds := id.toList ++ state.seenIds
        normalized := state.normalized ++
          [{ id
             title := ((input.title.map trim).filter (· != "")).getD (defaultTitle uri)
             uri
             preservedNetworkShare }] }

def normalizeInputs (mayPreserveNetworkShare : Option String → String → Bool) (inputs : List LinkAttachmentInput) :
    Except JsError (List NormalizedLinkInput) :=
  (inputs.foldlM (normalizeInput mayPreserveNetworkShare) {}).map (·.normalized)

end

/-! ### The links there are -/

def isLink (attachment : Attachment) : Bool := attachment.kind == some (.str "link")

def isLiveLink (attachment : Attachment) : Bool := isLink attachment && !truthy attachment.deletedAt

def liveLinksById (current : List Attachment) : JsMap Attachment := .ofItems (·.id) (current.filter isLiveLink)

/-- A key that is no string is never looked up. -/
def addByUri (links : JsMap Attachment) (attachment : Attachment) : JsMap Attachment :=
  match asStr? attachment.uri with
  | none => links
  | some uri => if (links.get? uri).isSome then links else links.set uri attachment

def liveLinksByUri (current : List Attachment) : JsMap Attachment :=
  (current.filter isLiveLink).foldl addByUri .empty

def anyLinkById (current : List Attachment) : JsMap Attachment := .ofItems (·.id) (current.filter isLink)

/-- The permission `applyLinkAttachmentsWithResult` gives. -/
def mayPreserve (current : List Attachment) (id : Option String) (uri : String) : Bool :=
  let found :=
    match id with
    | some id => (liveLinksById current).get? id
    | none => (liveLinksByUri current).get? uri
  found.any fun attachment => attachment.uri == some (.str uri)

def matchOf (current : List Attachment) (input : NormalizedLinkInput) : Option Attachment :=
  match input.id with
  | some id => (anyLinkById current).get? id
  | none => (liveLinksByUri current).get? input.uri

/-! ### The replacement -/

/-- `made` ids have been made. -/
structure ApplyState where
  touched : JsMap Attachment := .empty
  added : List Attachment := []
  made : Nat := 0
  preservedNetworkLinkCount : Nat := 0

/-- What is stored for the link that an input matches. -/
def rewriteLink (now : String) (found : Attachment) (input : NormalizedLinkInput) : Attachment :=
  if !truthy found.deletedAt && found.title == some (.str input.title) && found.uri == some (.str input.uri) then found
  else
    { found with
      title := some (.str input.title)
      uri := some (.str input.uri)
      deletedAt := none
      updatedAt := some (.str now) }

def newLink (now id : String) (input : NormalizedLinkInput) : Attachment where
  id := id
  kind := some (.str "link")
  title := some (.str input.title)
  uri := some (.str input.uri)
  createdAt := some (.str now)
  updatedAt := some (.str now)

def applyInput (current : List Attachment) (now : String) (makeId : Nat → String) (state : ApplyState)
    (input : NormalizedLinkInput) : Except JsError ApplyState :=
  match matchOf current input with
  | some found =>
    .ok
      { state with
        touched := state.touched.set found.id (rewriteLink now found input)
        preservedNetworkLinkCount :=
          state.preservedNetworkLinkCount + if input.preservedNetworkShare then 1 else 0 }
  | none =>
    match input.id with
    | some id =>
      if current.any (·.id == id) then .error (.error ("Attachment " ++ id ++ " is not a link attachment"))
      else .ok { state with added := state.added ++ [newLink now id input] }
    | none =>
      .ok { state with added := state.added ++ [newLink now (makeId state.made) input], made := state.made + 1 }

def buryLink (now : String) (attachment : Attachment) : Attachment :=
  { attachment with deletedAt := some (.str now), updatedAt := some (.str now) }

def replaceLink (now : String) (touched : String → Option Attachment) (attachment : Attachment) : Attachment :=
  if !isLink attachment then attachment
  else (touched attachment.id).getD (if truthy attachment.deletedAt then attachment else buryLink now attachment)

structure ApplyLinkAttachmentsResult where
  attachments : List Attachment
  preservedNetworkLinkCount : Nat
deriving DecidableEq, Repr

def applyLinkAttachmentsWithResult [Runtime] (existing : Option (List Attachment))
    (inputs : Option (List LinkAttachmentInput)) (now : String) (makeId : Nat → String) :
    Except JsError ApplyLinkAttachmentsResult := do
  let current := existing.getD []
  let normalized ← normalizeInputs (mayPreserve current) (inputs.getD [])
  let state ← normalized.foldlM (applyInput current now makeId) {}
  return {
    attachments := current.map (replaceLink now state.touched.get?) ++ state.added
    preservedNetworkLinkCount := state.preservedNetworkLinkCount }

end Mindwtr.Mcp
