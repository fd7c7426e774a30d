import Mindwtr.Js.Record
import Mindwtr.Sync.Merge

/-!
# Saved filters

`normalizeSavedFilters` of `saved-filters.ts` and the merge of two lists of filters in
`sync-merge-settings.ts`. Filters are merged one by one: the later change wins, a filter deleted on one side
only within the ambiguous window stays deleted, and equal times go to the deterministic winner.
-/

namespace Mindwtr.Sync

open Mindwtr.Js

variable [Runtime]

/-! ### The normal form -/

/-- The members of a set of options as `Set.prototype.has` finds them. -/
def memberOf (values : List String) (v : Json) : Bool := v.asStr?.any fun s => values.contains s

def optionOf (values : List String) (v : Option Json) : Option Json := v.filter (memberOf values)

def filterStatusValues : List String := ["inbox", "next", "waiting", "someday", "reference", "done", "archived"]
def filterPriorityValues : List String := ["none", "low", "medium", "high", "urgent"]
def taskEnergyValues : List String := ["low", "medium", "high"]
def timeEstimateValues : List String := ["5min", "10min", "15min", "30min", "1hr", "2hr", "3hr", "4hr", "4hr+"]
def matchModeValues : List String := ["any", "all"]
def savedFilterViewValues : List String := ["focus", "next", "waiting", "someday", "contexts", "all"]
def focusGroupByValues : List String :=
  ["none", "context", "project", "area", "energy", "priority", "person", "tag"]
def sortFieldValues : List String :=
  ["default", "due", "start", "review", "title", "created", "created-desc", "priority", "energy", "timeEstimate",
    "project", "updated"]
def datePresetValues : List String := ["today", "this_week", "this_month", "overdue", "no_date"]

def normalizePrefixedToken (pre value : String) : String := if value.startsWith pre then value else pre ++ value

/-- Trimmed, without blanks, and without tokens that differ from an earlier one in case only. -/
def normalizeTokens (pre : String) (items : List Json) : List String :=
  items.foldl (fun next item =>
    match item.asStr? with
    | none => next
    | some s =>
      if isBlank s then next
      else
        let normalized := normalizePrefixedToken pre (trim s)
        if next.any fun t => Runtime.toLowerCase t == Runtime.toLowerCase normalized then next
        else next ++ [normalized]) []

def nonEmptyStrings (values : List String) : Option (List String) := if values.isEmpty then none else some values

def normalizeStringTokens (pre : String) (value : Option Json) : Option (List String) :=
  (value.bind Json.asArr?).bind fun items => nonEmptyStrings (normalizeTokens pre items)

/-- Drops the tokens that are in `remove` up to case. -/
def subtractTokens (tokens remove : Option (List String)) : Option (List String) :=
  tokens.bind fun tokens =>
    match remove with
    | none => some tokens
    | some remove =>
      let keys := remove.map Runtime.toLowerCase
      nonEmptyStrings (tokens.filter fun token => !keys.contains (Runtime.toLowerCase token))

def normalizeEnumArray (allowed : List String) (value : Option Json) : Option (List String) :=
  (value.bind Json.asArr?).bind fun items =>
    nonEmptyStrings ((items.filterMap Json.asStr?).filter allowed.contains).reverse.dedup.reverse

def stringList (values : Option (List String)) : Option Json := values.map fun values => .arr (values.map .str)

def trimmedString (value : Option Json) : Option Json :=
  ((asStr? value).filter fun s => !isBlank s).map fun s => .str (trim s)

def normalizeDateRange (value : Option Json) : Option Json :=
  match value with
  | some (.obj range) =>
    match optionOf datePresetValues (lookup "preset" range) with
    | some preset => some (.obj [("preset", preset)])
    | none => nonEmptyRecord (pickProps ["from", "to"] fun key => trimmedString (lookup key range))
  | _ => none

/-- A count of minutes, never negative. -/
def wholeMinutes (value : Option Json) : Option Json := (asNum? value).map fun n => .num (max 0 n.floor)

def normalizeTimeEstimateRange (value : Option Json) : Option Json :=
  nonEmptyRecord (pickProps ["min", "max"] fun key => wholeMinutes (prop value key))

def booleanOf (value : Option Json) : Option Json :=
  value.filter fun v => v == .bool true || v == .bool false

def normalizeFilterCriteria (value : Option Json) : Record :=
  let contexts := normalizeStringTokens "@" (prop value "contexts")
  let tags := normalizeStringTokens "#" (prop value "tags")
  let matchMode (tokens : Option (List String)) (key : String) : Option Json :=
    if tokens.isSome then optionOf matchModeValues (prop value key) else none
  let fields : List (String × Option Json) := [
    ("contexts", stringList contexts),
    ("contextMatchMode", matchMode contexts "contextMatchMode"),
    ("excludedContexts",
      stringList (subtractTokens (normalizeStringTokens "@" (prop value "excludedContexts")) contexts)),
    ("areas", stringList (normalizeStringTokens "" (prop value "areas"))),
    ("projects", stringList (normalizeStringTokens "" (prop value "projects"))),
    ("tags", stringList tags),
    ("tagMatchMode", matchMode tags "tagMatchMode"),
    ("excludedTags", stringList (subtractTokens (normalizeStringTokens "#" (prop value "excludedTags")) tags)),
    ("energy", stringList (normalizeEnumArray taskEnergyValues (prop value "energy"))),
    ("priority", stringList (normalizeEnumArray filterPriorityValues (prop value "priority"))),
    ("statuses", stringList (normalizeEnumArray filterStatusValues (prop value "statuses"))),
    ("assignedTo", stringList (normalizeStringTokens "" (prop value "assignedTo"))),
    ("locations", stringList (normalizeStringTokens "" (prop value "locations"))),
    ("timeEstimates", stringList (normalizeEnumArray timeEstimateValues (prop value "timeEstimates"))),
    ("dueDateRange", normalizeDateRange (prop value "dueDateRange")),
    ("startDateRange", normalizeDateRange (prop value "startDateRange")),
    ("timeEstimateRange", normalizeTimeEstimateRange (prop value "timeEstimateRange")),
    ("hasDescription", booleanOf (prop value "hasDescription")),
    ("isStarred", booleanOf (prop value "isStarred"))]
  fields.filterMap fun e => e.2.map fun v => (e.1, v)

structure SavedFilter where
  id : String
  name : String
  icon : Option Json
  view : Json
  criteria : Record
  sortBy : Option Json
  sortOrder : Option Json
  groupBy : Option Json
  createdAt : String
  updatedAt : String
  deletedAt : Option Json
deriving DecidableEq

def SavedFilter.record (filter : SavedFilter) : Record :=
  let fields : List (String × Option Json) := [
    ("id", some (.str filter.id)), ("name", some (.str filter.name)), ("icon", filter.icon),
    ("view", some filter.view), ("criteria", some (.obj filter.criteria)), ("sortBy", filter.sortBy),
    ("sortOrder", filter.sortOrder), ("groupBy", filter.groupBy), ("createdAt", some (.str filter.createdAt)),
    ("updatedAt", some (.str filter.updatedAt)), ("deletedAt", filter.deletedAt)]
  fields.filterMap fun e => e.2.map fun v => (e.1, v)

/-- A filter without a name or an id is dropped; one without a creation time gets the current one. -/
def normalizeSavedFilter (now : String) (value : Json) : Option SavedFilter :=
  let read := prop (some value)
  let nonBlank (key : String) : Option String := (asStr? (read key)).filter fun s => !isBlank s
  match nonBlank "id", nonBlank "name" with
  | some id, some name =>
    let createdAt := (nonBlank "createdAt").getD now
    some {
      id := trim id
      name := trim name
      icon := trimmedString (read "icon")
      view := (optionOf savedFilterViewValues (read "view")).getD (.str "focus")
      criteria := normalizeFilterCriteria (read "criteria")
      sortBy := optionOf sortFieldValues (read "sortBy")
      sortOrder := optionOf ["asc", "desc"] (read "sortOrder")
      groupBy := optionOf focusGroupByValues (read "groupBy")
      createdAt
      updatedAt := (nonBlank "updatedAt").getD createdAt
      deletedAt := trimmedString (read "deletedAt") }
  | _, _ => none

/-- The comparison of `Array.prototype.sort`. -/
def compareSavedFilters (a b : SavedFilter) : Int :=
  match dateParse a.createdAt, dateParse b.createdAt with
  | some createdA, some createdB =>
    if createdA - createdB ≠ 0 then createdA - createdB else Runtime.localeCompare a.name b.name
  | _, _ => Runtime.localeCompare a.name b.name

def normalizeSavedFilters (now : String) (value : Option Json) : List SavedFilter :=
  match value with
  | some (.arr items) =>
    let byId := JsMap.ofItems SavedFilter.id (items.filterMap (normalizeSavedFilter now))
    (byId.entries.map Prod.snd).mergeSort fun a b => compareSavedFilters a b ≤ 0
  | _ => []

def savedFiltersJson (filters : List SavedFilter) : Json := .arr (filters.map fun filter => .obj filter.record)

/-! ### The merge -/

/-- `Date.parse` of a stamp that is there; `none` is `NaN`. -/
def parseSyncTimestamp (value : Option Json) : Option Int :=
  match value with
  | some (.str s) => if s = "" then none else dateParse s
  | some v => if v.truthy then dateParse (toStr v) else none
  | none => none

def isIncomingNewer (localAt incomingAt : Option Json) : Bool :=
  match parseSyncTimestamp localAt, parseSyncTimestamp incomingAt with
  | _, none => false
  | none, some _ => true
  | some localTime, some incomingTime => localTime < incomingTime

def savedFilterUpdatedAt (filter : SavedFilter) : Option Int := parseSyncTimestamp (some (.str filter.updatedAt))

def getSavedFilterOperationTime (filter : SavedFilter) : Option Int :=
  match savedFilterUpdatedAt filter, parseSyncTimestamp filter.deletedAt with
  | updatedAt, none => updatedAt
  | none, some deletedAt => some deletedAt
  | some updatedAt, some deletedAt => some (max updatedAt deletedAt)

def chooseDeterministicFilter (localFilter incomingFilter : SavedFilter) : SavedFilter :=
  (chooseDeterministicWinner localFilter.record incomingFilter.record).pick localFilter incomingFilter

def chooseDeletedSavedFilter (localFilter incomingFilter : SavedFilter) : SavedFilter :=
  if truthy localFilter.deletedAt && !truthy incomingFilter.deletedAt then localFilter
  else if truthy incomingFilter.deletedAt && !truthy localFilter.deletedAt then incomingFilter
  else chooseDeterministicFilter localFilter incomingFilter

def chooseSavedFilter (localFilter incomingFilter : SavedFilter) (incomingWins : Bool) : SavedFilter :=
  if truthy localFilter.deletedAt ≠ truthy incomingFilter.deletedAt then
    match getSavedFilterOperationTime localFilter, getSavedFilterOperationTime incomingFilter with
    | some localOperationTime, some incomingOperationTime =>
      let operationDiff := incomingOperationTime - localOperationTime
      if operationDiff.natAbs ≤ deleteVsLiveAmbiguousWindowMs then
        chooseDeletedSavedFilter localFilter incomingFilter
      else if operationDiff > 0 then incomingFilter
      else localFilter
    | _, _ => chooseDeletedSavedFilter localFilter incomingFilter
  else
    match savedFilterUpdatedAt localFilter, savedFilterUpdatedAt incomingFilter with
    | none, some _ => incomingFilter
    | some _, none => localFilter
    | some localUpdatedAt, some incomingUpdatedAt =>
      if incomingUpdatedAt - localUpdatedAt > 0 then incomingFilter
      else if incomingUpdatedAt - localUpdatedAt < 0 then localFilter
      else chooseDeterministicFilter localFilter incomingFilter
    | none, none => if incomingWins then incomingFilter else localFilter

def mergeSavedFiltersById (now : String) (localValue incomingValue : Option Json) (incomingWins : Bool) :
    List SavedFilter :=
  let localFilters := normalizeSavedFilters now localValue
  let incomingFilters := normalizeSavedFilters now incomingValue
  let incomingById := JsMap.ofItems SavedFilter.id incomingFilters
  let mergedById := localFilters.foldl (fun merged localFilter =>
    merged.set localFilter.id (match incomingById.get? localFilter.id with
      | some incomingFilter => chooseSavedFilter localFilter incomingFilter incomingWins
      | none => localFilter)) JsMap.empty
  let mergedById := incomingFilters.foldl (fun merged incomingFilter =>
    if (merged.get? incomingFilter.id).isSome then merged
    else merged.set incomingFilter.id incomingFilter) mergedById
  normalizeSavedFilters now (some (savedFiltersJson (mergedById.entries.map Prod.snd)))

end Mindwtr.Sync
