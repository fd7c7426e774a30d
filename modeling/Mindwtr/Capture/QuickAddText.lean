import Mindwtr.Js.Text
import Mindwtr.Lib.Regex

/-!
# The text of a quick-add line

What `quick-add.ts` does with text before and between its patterns: a backslash before a control character protects
it, white space is collapsed, and a token that was applied is cut out of the line. A line is its characters.
-/

namespace Mindwtr.Capture

open Mindwtr.Js Mindwtr.Lib

abbrev Line := List Char

/-! ### Escapes -/

/-- `__MW_ESC__`. -/
def escapeSentinel : Line := ['_', '_', 'M', 'W', '_', 'E', 'S', 'C', '_', '_']

def quickAddEscapeChars : Line := ['@', '#', '+', '/', '!', '%']

/-- The sentinel for an escaped character. -/
def sentinelFor (c : Char) : Line := escapeSentinel ++ Nat.toDigits 10 c.toNat ++ ['_', '_']

def protectEscapes : Line → Line
  | '\\' :: next :: rest =>
    if next ∈ quickAddEscapeChars then sentinelFor next ++ protectEscapes rest
    else '\\' :: protectEscapes (next :: rest)
  | c :: rest => c :: protectEscapes rest
  | [] => []

/-- The number that digits write. -/
def decimalValue (digits : Line) : Nat := digits.foldl (fun n c => 10 * n + (c.toNat - 48)) 0

/-- A sentinel at the start of a line: the character it stands for and its length. -/
def sentinelAt (line : Line) : Option (Char × Nat) :=
  let rest := line.drop escapeSentinel.length
  let digits := rest.takeWhile Char.isDigit
  if escapeSentinel.isPrefixOf line && !digits.isEmpty && ['_', '_'].isPrefixOf (rest.drop digits.length) then
    some (Char.ofNat (decimalValue digits % 65536), escapeSentinel.length + digits.length + 2)
  else none

/-- The first `skip` characters belong to a sentinel that was read. -/
def restoreFrom : Nat → Line → Line
  | _, [] => []
  | skip + 1, _ :: rest => restoreFrom skip rest
  | 0, c :: rest =>
    match sentinelAt (c :: rest) with
    | some (original, length) => original :: restoreFrom (length - 1) rest
    | none => c :: restoreFrom 0 rest

def restoreEscapes (line : Line) : Line := restoreFrom 0 line

/-! ### White space -/

/-- The runs of white space of at least this length, each replaced by one blank. -/
def collapseRuns (atLeast : Nat) (line : Line) : Line :=
  (line.splitBy fun a b => isTrimmed a == isTrimmed b).flatMap fun run =>
    if run.any isTrimmed && decide (atLeast ≤ run.length) then [' '] else run

def trimLine (line : Line) : Line := (line.dropWhile isTrimmed).rdropWhile isTrimmed

/-- `.replace(/\s+/g, ' ').trim()`. -/
def collapseWhitespace (line : Line) : Line := trimLine (collapseRuns 1 line)

/-- `.replace(/\s{2,}/g, ' ').trim()`. -/
def tidy (line : Line) : Line := trimLine (collapseRuns 2 line)

/-! ### Cutting -/

/-- Where a text first occurs in a line. -/
def indexOf? (text : Line) : Line → Option Nat
  | [] => if text.isEmpty then some 0 else none
  | c :: rest => if text.isPrefixOf (c :: rest) then some 0 else (indexOf? text rest).map (· + 1)

/-- `source.replace(token, '')`. -/
def removeFirst (source token : Line) : Line :=
  match indexOf? token source with
  | some index => source.take index ++ source.drop (index + token.length)
  | none => source

def stripToken (source token : Line) : Line := tidy (removeFirst source token)

/-- `value.replace(/\\(["\\])/g, '$1')`. -/
def unescapeQuotes : Line → Line
  | '\\' :: next :: rest =>
    if next = '"' ∨ next = '\\' then next :: unescapeQuotes rest else '\\' :: unescapeQuotes (next :: rest)
  | c :: rest => c :: unescapeQuotes rest
  | [] => []

/-! ### Parts of patterns -/

section
open Regex

def isWordChar (c : Char) : Bool := c.isAlphanum || c == '_'

/-- `.`, which is not the end of a line. -/
def isAnyChar (c : Char) : Bool := c != '\n' && c != '\r' && c != '\u2028' && c != '\u2029'

def space : Regex Char := letter isTrimmed

def char (c : Char) : Regex Char := letter (· == c)

def oneOfChars (chars : String) : Regex Char := letter chars.toList.contains

def noneOfChars (chars : String) : Regex Char := letter fun c => !chars.toList.contains c

/-- These characters, in lower case; in any case where the pattern has the flag `i`. -/
def text (caseless : Bool) (letters : String) : Regex Char :=
  letters.toList.foldr (fun a r => seq (letter fun c => if caseless then c.toLower == a else c == a) r) empty

/-- A whole word of the pattern. -/
def wholeWord (caseless : Bool) (letters : String) : Regex Char := seq (text caseless letters) (boundary isWordChar)

/-- `(?:^|\s)`. -/
def wordStart : Regex Char := either lineStart space

def quickAddFocusCommandPattern (caseless : Bool) : Regex Char :=
  seq (char '*') (optional (seq (plus space) (wholeWord caseless "focus")))

/-- What may follow the slash of a command. -/
def commandNames (caseless : Bool) : Regex Char :=
  oneOf ([quickAddFocusCommandPattern caseless] ++
    ["link:", "note:", "start:", "due:", "review:", "project:", "area:", "energy:", "priority:"].map (text caseless) ++
    ["inbox", "next", "in-progress", "waiting", "someday", "reference", "done", "archived"].map (wholeWord caseless))

def quickAddCommandBoundary (caseless : Bool) : Regex Char :=
  ahead (either (sequence [space, char '/', commandNames caseless]) lineEnd)

def quickAddInlineControlBoundary : Regex Char :=
  ahead (either (seq space (either (oneOfChars "@#+!%") (seq (char '/') (commandNames false)))) lineEnd)

/-- `(?:^|\s)\/name:([\s\S]+?)` up to the next command, or `[\s\S]*?` of it. -/
def commandPattern (name : String) (value : Regex Char) : Regex Char :=
  sequence [wordStart, char '/', text true name, char ':', group 1 value, quickAddCommandBoundary true]

/-- `[\s\S]`. -/
def anything : Regex Char := letter fun _ => true

def lazyPlus (r : Regex Char) : Regex Char := seq r (many false r)

/-- `(?:^|\s)\/name:([^\s/]+)`. -/
def argumentPattern (name : String) : Regex Char :=
  sequence [wordStart, char '/', text true name, char ':', group 1 (plus (letter fun c => !isTrimmed c && c != '/'))]

/-- `(?:^|\s)%([^\s/]+(?:\s+(?![@#+/!%])[^/\s]+)*)`. -/
def namePattern (marker : Char) (stops : String) : Regex Char :=
  let word := plus (letter fun c => !isTrimmed c && c != '/')
  sequence [wordStart, char marker,
    group 1 (seq word (many true (sequence [plus space, notAhead (oneOfChars stops), word])))]

/-- `"((?:\\.|[^"\\])*)"`, the canonical form of a quoted name. -/
def straightQuoted (number : Nat) : Regex Char :=
  sequence [char '"', group number (many true (either (seq (char '\\') (letter isAnyChar)) (noneOfChars "\"\\"))),
    char '"']

def quotedBy (opening closing inside : String) (number : Nat) : Regex Char :=
  sequence [oneOfChars opening, group number (many true (noneOfChars inside)), oneOfChars closing]

def quotedNamePattern (marker : Char) : Regex Char :=
  sequence [wordStart, char marker,
    oneOf [straightQuoted 1, quotedBy "“”" "\"”" "\"”" 2, quotedBy "„" "\"“”" "\"“”" 3, quotedBy "'" "'" "'" 4,
      quotedBy "‘’" "’" "’" 5]]

def quotedTokenPattern : Regex Char :=
  sequence [wordStart, group 1 (oneOfChars "@#"),
    either (straightQuoted 2) (quotedBy "“”„" "\"“”" "\"“”" 3)]

def statusPattern : Regex Char :=
  sequence [wordStart, char '/',
    group 1 (oneOf (["inbox", "next", "in-progress", "waiting", "someday", "reference", "done", "archived"].map
      (text true))),
    ahead (either space lineEnd)]

def focusPattern : Regex Char :=
  sequence [wordStart, char '/', quickAddFocusCommandPattern true, ahead (either space lineEnd)]

end

end Mindwtr.Capture
