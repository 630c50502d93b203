import ThreadAffinity.Text.Quoted

/-!
Why a JSON document was refused, and where.

A fault is the cause. It belongs to one of three classes: the text ends too early, it is not JSON,
or it is JSON of the wrong shape. A failure is a fault with its place: lines count from one, columns
count the bytes since the last line feed. -/

namespace ThreadAffinity.Json

/-- The sort of value that stands where another one was expected. -/
inductive Found where
  | null
  | boolean (b : Bool)
  | integer (i : Int)
  /-- A number with a fraction or an exponent, or too large for an integer, in its shortest form. -/
  | real (text : String)
  | string (s : String)
  | sequence
  | map
  /-- The name of an alternative that needs content. -/
  | bareName
deriving DecidableEq, Repr

/-- The found value in a message. -/
def Found.text : Found → String
  | null => "null"
  | boolean b => "boolean `" ++ (if b then "true" else "false") ++ "`"
  | integer i => "integer `" ++ toString i ++ "`"
  | real text => "floating point `" ++ text ++ "`"
  | string s => "string " ++ Text.quote s
  | sequence => "sequence"
  | map => "map"
  | bareName => "unit variant"

/-- The three classes of faults. -/
inductive FaultClass where
  | malformed
  | mismatched
  | truncated
deriving DecidableEq, Repr

/-- The word under which a class is written. -/
def FaultClass.name : FaultClass → String
  | malformed => "Syntax"
  | mismatched => "Data"
  | truncated => "Eof"

/-- What is wrong with a document. -/
inductive Fault where
  | endInValue
  | endInList
  | endInObject
  | endInString
  | expectedValue
  | expectedLiteral
  | expectedColon
  | expectedListEnd
  | expectedObjectEnd
  | keyNotString
  | trailingComma
  | trailingCharacters
  | invalidEscape
  | invalidNumber
  | numberOutOfRange
  | controlCharacter
  | loneSurrogate
  | cutSurrogatePair
  | nestedTooDeep
  | missingField (name : String)
  | duplicateField (name : String)
  | unknownName (name : String) (known : List String)
  | invalidLength (length : Nat) (expected : String)
  | invalidType (found : Found) (expected : String)
  | invalidValue (found : Found) (expected : String)
deriving DecidableEq, Repr

namespace Fault

/-- The class that a fault belongs to. -/
def faultClass : Fault → FaultClass
  | endInValue | endInList | endInObject | endInString => .truncated
  | missingField _ | duplicateField _ | unknownName .. | invalidLength .. | invalidType ..
  | invalidValue .. => .mismatched
  | _ => .malformed

/-- The fault in words, without its place. -/
def text : Fault → String
  | endInValue => "EOF while parsing a value"
  | endInList => "EOF while parsing a list"
  | endInObject => "EOF while parsing an object"
  | endInString => "EOF while parsing a string"
  | expectedValue => "expected value"
  | expectedLiteral => "expected ident"
  | expectedColon => "expected `:`"
  | expectedListEnd => "expected `,` or `]`"
  | expectedObjectEnd => "expected `,` or `\x7d`"
  | keyNotString => "key must be a string"
  | trailingComma => "trailing comma"
  | trailingCharacters => "trailing characters"
  | invalidEscape => "invalid escape"
  | invalidNumber => "invalid number"
  | numberOutOfRange => "number out of range"
  | controlCharacter => "control character (\\u0000-\\u001F) found while parsing a string"
  | loneSurrogate => "lone leading surrogate in hex escape"
  | cutSurrogatePair => "unexpected end of hex escape"
  | nestedTooDeep => "recursion limit exceeded"
  | missingField name => "missing field `" ++ name ++ "`"
  | duplicateField name => "duplicate field `" ++ name ++ "`"
  | unknownName name known =>
    "unknown variant `" ++ name ++ "`, expected one of " ++
      ", ".intercalate (known.map fun k => "`" ++ k ++ "`")
  | invalidLength length expected =>
    "invalid length " ++ toString length ++ ", expected " ++ expected
  | invalidType found expected => "invalid type: " ++ found.text ++ ", expected " ++ expected
  | invalidValue found expected => "invalid value: " ++ found.text ++ ", expected " ++ expected

end Fault

/-- A fault and its place. -/
structure Failure where
  fault : Fault
  line : Nat
  column : Nat
deriving DecidableEq, Repr

/-- The failure in words. -/
def Failure.message (f : Failure) : String :=
  f.fault.text ++ " at line " ++ toString f.line ++ " column " ++ toString f.column

/-- The line and column after the first `offset` bytes of the characters. -/
def placeOf : List Char → (offset line column : Nat) → Nat × Nat
  | [], _, line, column => (line, column)
  | c :: cs, offset, line, column =>
    if offset = 0 then (line, column)
    else if offset < c.utf8Size then (line, column + offset)
    else if c = '\n' then placeOf cs (offset - c.utf8Size) (line + 1) 0
    else placeOf cs (offset - c.utf8Size) line (column + c.utf8Size)

/-- The failure of a fault that was noticed after some bytes of a text. -/
def Failure.ofOffset (text : List Char) (fault : Fault) (offset : Nat) : Failure :=
  let place := placeOf text offset 1 0
  ⟨fault, place.1, place.2⟩

end ThreadAffinity.Json
