import Mindwtr.Capture.QuickAddText
import Mindwtr.Js.Runtime
import Mindwtr.Lib.RegexWords

/-!
# Search queries

`parseSearchQuery` of `search.ts`: a query is cut into tokens by one pattern, and a token is read as a term after its
dash and its quotes are taken off.
-/

namespace Mindwtr.Search

open Mindwtr.Capture Mindwtr.Js Mindwtr.Lib Mindwtr.Lib.Regex

inductive SearchComparator where
  | less
  | lessOrEqual
  | greater
  | greaterOrEqual
  | equal
deriving DecidableEq, Repr

structure SearchTerm where
  field : Option String
  comparator : Option SearchComparator
  value : String
  negated : Bool
deriving DecidableEq, Repr

structure SearchClause where
  terms : List SearchTerm
deriving DecidableEq, Repr

structure SearchQuery where
  clauses : List SearchClause
deriving DecidableEq, Repr

/-! ### Tokens -/

def isNotSpace (c : Char) : Bool := !isTrimmed c
def isNotQuote (c : Char) : Bool := c != '"'
/-- `[^:\s]`. -/
def isFieldLetter (c : Char) : Bool := c != ':' && !isTrimmed c

/-- `"[^"]+"`. -/
def phrase : Regex Char := .seq (.letter (· == '"')) (.seq (plus (.letter isNotQuote)) (.letter (· == '"')))

/-- `-?[^:\s]+:"[^"]+"`. -/
def fieldPhrase : Regex Char :=
  .seq (optional (.letter (· == '-'))) (.seq (plus (.letter isFieldLetter)) (.seq (.letter (· == ':')) phrase))

def tokenPattern : Regex Char := .either fieldPhrase (.either phrase (plus (.letter isNotSpace)))

def tokenize (query : String) : List (List Char) :=
  ((searchAll tokenPattern query.toList).map fun found => trimLine found.text).filter (· != [])

/-! ### Terms -/

/-- Every character but a line terminator. -/
def isDot (c : Char) : Bool := c != '\n' && c != '\r' && c != '\u2028' && c != '\u2029'

/-- `^(<=|>=|<|>|=)\s*(.+)$`. -/
def comparatorPattern : Regex Char :=
  sequence [.lineStart,
    .group 1 (oneOf [word ['<', '='], word ['>', '='], .letter (· == '<'), .letter (· == '>'), .letter (· == '=')]),
    .many true (.letter isTrimmed), .group 2 (plus (.letter isDot)), .lineEnd]

def readComparator (text : List Char) : Option SearchComparator :=
  if text = ['<'] then some .less
  else if text = ['<', '='] then some .lessOrEqual
  else if text = ['>'] then some .greater
  else if text = ['>', '='] then some .greaterOrEqual
  else if text = ['='] then some .equal
  else none

def parseComparator (value : List Char) : Option SearchComparator × List Char :=
  match search comparatorPattern value with
  | none => (none, trimLine value)
  | some found =>
    (readComparator ((found.group? 1).getD []), trimLine ((found.group? 2).getD []))

/-- `token.replace(/^"|"$/g, '')`. -/
def stripQuotes (token : List Char) : List Char :=
  let opened := if token.head? = some '"' then token.tail else token
  if opened.getLast? = some '"' then opened.dropLast else opened

section
variable [Runtime]

def parseTerm (rawToken : List Char) : SearchTerm :=
  let negated := rawToken.head? == some '-'
  let token := stripQuotes (if negated then rawToken.tail else rawToken)
  let colonIndex := token.idxOf ':'
  if ':' ∈ token ∧ 0 < colonIndex then
    let (comparator, rest) := parseComparator (token.drop (colonIndex + 1))
    { field := some (Runtime.toLowerCase (String.ofList (token.take colonIndex)))
      comparator
      value := String.ofList (stripQuotes rest)
      negated }
  else { field := none, comparator := none, value := String.ofList token, negated }

def isOr (rawToken : List Char) : Bool :=
  Runtime.toUpperCase (String.ofList rawToken) == "OR" || rawToken == ['|'] || rawToken == ['|', '|']

/-- The clauses so far and the terms of the clause that is being read. -/
structure ParseState where
  clauses : List SearchClause := []
  currentTerms : List SearchTerm := []

def pushClause (state : ParseState) : ParseState :=
  if state.currentTerms = [] then state
  else { clauses := state.clauses ++ [{ terms := state.currentTerms }], currentTerms := [] }

def readToken (state : ParseState) (rawToken : List Char) : ParseState :=
  if isOr rawToken then pushClause state
  else { state with currentTerms := state.currentTerms ++ [parseTerm rawToken] }

def parseSearchQuery (query : String) : SearchQuery :=
  { clauses := (pushClause ((tokenize query).foldl readToken {})).clauses }

end

end Mindwtr.Search
