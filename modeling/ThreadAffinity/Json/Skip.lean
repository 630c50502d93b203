import ThreadAffinity.Json.Number
import ThreadAffinity.Json.Strings

/-!
Passing over a value that nobody asked for.

Such a value has to be well formed, but that is all: its brackets may nest without limit, its
numbers may be of any size and its strings may hold lone surrogates. -/

namespace ThreadAffinity.Json

/-- Passes over an escape in a string, behind its backslash. -/
def skipEscape : Reading Unit := do
  match ← peek with
  | some 'u' =>
    eat
    let _ ← fourHex
  | next =>
    match next.bind escapedLetter? with
    | some _ => eat
    | none => failNext .invalidEscape .endInString

/-- Passes over the characters up to the closing quote. -/
def skipString : (fuel : Nat) → Reading Unit
  | 0 => return
  | fuel + 1 => do
    match ← peek with
    | none => failHere .endInString
    | some '"' => eat
    | some '\\' =>
      eat
      skipEscape
      skipString fuel
    | some c =>
      if isControl c then failHere .controlCharacter
      else
        eat
        skipString fuel

/-- Passes over the digits in front of the point. -/
def skipWhole : Reading Unit := do
  match (← peek).bind digitOf? with
  | none => failPeek .invalidNumber
  | some 0 =>
    eat
    match (← peek).bind digitOf? with
    | some _ => failPeek .invalidNumber
    | none => return
  | some _ =>
    let _ ← digits

/-- Passes over at least one digit. -/
def skipDigits : Reading Unit := do
  let ds ← digits
  if ds.isEmpty then failPeek .invalidNumber else return

/-- Passes over a number. -/
def skipNumber : Reading Unit := do
  if (← peek) = some '-' then eat
  skipWhole
  if (← peek) = some '.' then
    eat
    skipDigits
  match ← peek with
  | some 'e' | some 'E' =>
    eat
    let _ ← exponentSign
    skipDigits
  | _ => return

/-- An open bracket around a skipped value. -/
inductive Bracket where
  | list
  | object
deriving DecidableEq, Repr

/-- The character that closes the bracket. -/
def Bracket.close : Bracket → Char
  | list => ']'
  | object => '}'

/-- The fault of a bracket that the text ends in. -/
def Bracket.cut : Bracket → Fault
  | list => .endInList
  | object => .endInObject

/-- The fault of a bracket that goes on without a comma. -/
def Bracket.unseparated : Bracket → Fault
  | list => .expectedListEnd
  | object => .expectedObjectEnd

/-- Reads the colon behind a key. -/
def colon : Reading Unit := do
  match ← look with
  | some ':' => eat
  | some _ => failPeek .expectedColon
  | none => failPeek .endInObject

/-- Passes over a key and its colon. -/
def skipKey : Reading Unit := do
  match ← look with
  | some '"' =>
    eat
    skipString (← rounds)
    colon
  | some _ => failPeek .keyNotString
  | none => failPeek .endInObject

/-- Passes over the front of a value: all of it, or only its opening bracket. -/
def skipFront : Reading (Option Bracket) := do
  match ← look with
  | none => failPeek .endInValue
  | some 'n' => eat; literal ['u', 'l', 'l']; return none
  | some 't' => eat; literal ['r', 'u', 'e']; return none
  | some 'f' => eat; literal ['a', 'l', 's', 'e']; return none
  | some '"' => eat; skipString (← rounds); return none
  | some '[' => eat; return some .list
  | some '{' => eat; return some .object
  | some c =>
    if c == '-' || c.isDigit then
      skipNumber
      return none
    else failPeek .expectedValue

/-- Closes brackets as long as they close; `behindValue` holds when a value stands in front. Returns
the brackets in which another value has to follow, innermost first. -/
def closeBrackets : List Bracket → (behindValue : Bool) → Reading (List Bracket)
  | [], _ => return []
  | b :: outer, behindValue => do
    match ← look with
    | none => failPeek b.cut
    | some c =>
      if behindValue && c == ',' then
        eat
        return b :: outer
      else if c == b.close then
        eat
        closeBrackets outer true
      else if behindValue then failPeek b.unseparated
      else return b :: outer

/-- Passes over the rest of a value inside the open brackets, innermost first. -/
def skipValues : (fuel : Nat) → List Bracket → Reading Unit
  | 0, _ => return
  | fuel + 1, brackets => do
    let opened ← skipFront
    let waiting ←
      match opened with
      | some b => closeBrackets (b :: brackets) false
      | none => closeBrackets brackets true
    match waiting with
    | [] => return
    | .list :: _ => skipValues fuel waiting
    | .object :: _ =>
      skipKey
      skipValues fuel waiting

/-- Passes over one value. -/
def skipValue : Reading Unit := do skipValues (← rounds) []

end ThreadAffinity.Json
