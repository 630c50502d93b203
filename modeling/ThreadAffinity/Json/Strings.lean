import ThreadAffinity.Json.Cursor

/-!
Reading strings.

A string is read piece by piece: a plain character, an escaped one, or the closing quote. Characters
beyond the basic plane may be escaped as a pair of surrogates, and only as a whole pair. -/

namespace ThreadAffinity.Json

/-- The value of a hexadecimal digit. -/
def hexValue? (c : Char) : Option Nat :=
  if '0' ≤ c && c ≤ '9' then some (c.toNat - '0'.toNat)
  else if 'a' ≤ c && c ≤ 'f' then some (c.toNat - 'a'.toNat + 10)
  else if 'A' ≤ c && c ≤ 'F' then some (c.toNat - 'A'.toNat + 10)
  else none

/-- The value of four hexadecimal digits at the front of a text. -/
def fourHex? : List Char → Option Nat
  | a :: b :: c :: d :: _ => do
    return (← hexValue? a) * 4096 + (← hexValue? b) * 256 + (← hexValue? c) * 16 + (← hexValue? d)
  | _ => none

/-- The number of bytes of some characters. -/
def byteCount (cs : List Char) : Nat := cs.foldl (fun n c => n + c.utf8Size) 0

/-- Reads four hexadecimal digits. Four bytes are consumed whatever they are. -/
def fourHex : Reading Nat := fun c =>
  match fourHex? c.rest with
  | some n => .ok (n, ⟨c.rest.drop 4, c.offset + 4⟩)
  | none =>
    let left := byteCount c.rest
    if 4 ≤ left then .error (.placed .invalidEscape (c.offset + 4))
    else .error (.placed .endInString (c.offset + left))

/-- The control characters, which a string may hold only in escaped form. -/
def isControl (c : Char) : Bool := c.toNat < 0x20

/-- The character that a one-letter escape stands for. -/
def escapedLetter? (c : Char) : Option Char :=
  match c with
  | '"' => some '"'
  | '\\' => some '\\'
  | '/' => some '/'
  | 'b' => some '\x08'
  | 'f' => some '\x0c'
  | 'n' => some '\n'
  | 'r' => some '\r'
  | 't' => some '\t'
  | _ => none

/-- Reads a character of the second half of a surrogate pair. -/
def pairMark (mark : Char) : Reading Unit := do
  if (← peek) = some mark then eat else failNext .cutSurrogatePair .endInString

/-- Reads an escaped code point, of one half or of two. -/
def codePoint : Reading Char := do
  let n ← fourHex
  if 0xDC00 ≤ n && n ≤ 0xDFFF then failHere .loneSurrogate
  else if n < 0xD800 || 0xDBFF < n then return Char.ofNat n
  else
    pairMark '\\'
    pairMark 'u'
    let m ← fourHex
    if m < 0xDC00 || 0xDFFF < m then failHere .loneSurrogate
    else return Char.ofNat ((n - 0xD800) * 1024 + (m - 0xDC00) + 0x10000)

/-- Reads one character of a string, or its closing quote. -/
def stringPiece : Reading (Option Char) := do
  match ← peek with
  | none => failHere .endInString
  | some '"' => eat; return none
  | some '\\' =>
    eat
    match ← peek with
    | some 'u' => eat; return some (← codePoint)
    | next =>
      match next.bind escapedLetter? with
      | some c => eat; return some c
      | none => failNext .invalidEscape .endInString
  | some c => if isControl c then failPeek .controlCharacter else eat; return some c

/-- Reads the characters up to the closing quote. -/
def stringPieces : (fuel : Nat) → Reading (List Char)
  | 0 => return []
  | fuel + 1 => do
    match ← stringPiece with
    | none => return []
    | some c => return c :: (← stringPieces fuel)

/-- Reads a string; the next character is its opening quote. -/
def string : Reading String := do
  eat
  return String.ofList (← stringPieces (← rounds))

end ThreadAffinity.Json
