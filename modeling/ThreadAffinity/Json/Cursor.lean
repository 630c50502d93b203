import ThreadAffinity.Json.Failure

/-!
A place in a JSON text, and the steps of reading from it.

A reading takes a cursor and returns a value and the cursor behind it, or stops at a fault. Most
faults know their place: the bytes consumed so far, or the byte that is in the way (`failPeek`). A
few are noticed by the content of a bracket and placed only when the bracket around it is closed;
these stay pending until then. -/

namespace ThreadAffinity.Json

/-- The characters still to be read, and the number of bytes before them. -/
structure Cursor where
  rest : List Char
  offset : Nat := 0
deriving DecidableEq, Repr

/-- The cursor before the first character of a text. -/
def Cursor.ofText (text : String) : Cursor := ⟨text.toList, 0⟩

/-- Whether the character may stand between the parts of a document. -/
def isSpace (c : Char) : Bool := c == ' ' || c == '\n' || c == '\t' || c == '\r'

/-- The cursor behind the spaces in front of it. -/
def Cursor.skipSpace (c : Cursor) : Cursor :=
  ⟨c.rest.dropWhile isSpace, c.offset + (c.rest.takeWhile isSpace).length⟩

/-- The cursor behind the next character. -/
def Cursor.drop (c : Cursor) : Cursor :=
  match c.rest with
  | [] => c
  | d :: ds => ⟨ds, c.offset + d.utf8Size⟩

/-- The number of bytes read once the byte in the way is counted in. -/
def Cursor.peekOffset (c : Cursor) : Nat := if c.rest.isEmpty then c.offset else c.offset + 1

/-- Why a reading stopped. -/
inductive Stop where
  /-- A fault with its place. -/
  | placed (fault : Fault) (offset : Nat)
  /-- A fault that the bracket around the cursor will place. -/
  | pending (fault : Fault) (cursor : Cursor)
deriving DecidableEq, Repr

/-- A step of reading. -/
abbrev Reading := StateT Cursor (Except Stop)

/-- Stops with a fault behind what has been read. -/
def failHere {α : Type} (fault : Fault) : Reading α := fun c => .error (.placed fault c.offset)

/-- Stops with a fault that many bytes before the end of what has been read. -/
def failBefore {α : Type} (fault : Fault) (bytes : Nat) : Reading α :=
  fun c => .error (.placed fault (c.offset - bytes))

/-- Stops with a fault at the byte in the way. -/
def failPeek {α : Type} (fault : Fault) : Reading α := fun c => .error (.placed fault c.peekOffset)

/-- Stops with a fault behind the first byte of a character that should not be there; at the end of
the text with the other fault. -/
def failNext {α : Type} (fault atEnd : Fault) : Reading α := fun c =>
  .error (.placed (if c.rest.isEmpty then atEnd else fault) c.peekOffset)

/-- Stops with a fault that is yet to be placed. -/
def failPending {α : Type} (fault : Fault) : Reading α := fun c => .error (.pending fault c)

/-- The next character, if there is one. -/
def peek : Reading (Option Char) := fun c => .ok (c.rest.head?, c)

/-- The next character behind any spaces; the spaces are consumed. -/
def look : Reading (Option Char) := fun c => .ok (c.skipSpace.rest.head?, c.skipSpace)

/-- Consumes one character. -/
def eat : Reading Unit := fun c => .ok ((), c.drop)

/-- How many rounds a loop may take that consumes a character in each: one more than there are
characters. -/
def rounds : Reading Nat := fun c => .ok (c.rest.length + 1, c)

/-- The rest of a literal, of which the first letter has been read. -/
def literal : List Char → Reading Unit
  | [] => pure ()
  | l :: ls => do
    if (← peek) = some l then
      eat
      literal ls
    else failNext .expectedLiteral .endInValue

/-- Reads the content of a bracket and then its end. A pending fault of the content is placed at
`reach`, where an attempt to read the end comes to. -/
def enclosed {α : Type} (content : Reading α) (close : Reading Unit) (reach : Cursor → Nat) :
    Reading α := fun c =>
  match content c with
  | .ok (x, c') => (close c').map fun r => (x, r.2)
  | .error (.placed fault offset) => .error (.placed fault offset)
  | .error (.pending fault c') => .error (.placed fault (reach c'))

/-- Reads a whole text: one value, and nothing but spaces behind it. -/
def document {α : Type} (value : Reading α) (text : String) : Except Failure α :=
  let whole := do
    let x ← value
    match ← look with
    | some _ => failPeek .trailingCharacters
    | none => pure x
  match whole (Cursor.ofText text) with
  | .ok (x, _) => .ok x
  | .error (.placed fault offset) => .error (Failure.ofOffset text.toList fault offset)
  | .error (.pending fault c) => .error (Failure.ofOffset text.toList fault c.offset)

end ThreadAffinity.Json
