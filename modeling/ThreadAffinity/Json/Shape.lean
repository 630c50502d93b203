import ThreadAffinity.Json.Skip

/-!
Reading values of a known shape.

Every reader here expects one shape and refuses all others with a fault that names what was found
and what was expected. A value in brackets is read only if the nesting limit leaves room for its
content: the reader of the content is `none` where it does not. A record may be written as an object
with its fields in any order, or as a list of them in the order of their declaration. -/

namespace ThreadAffinity.Json

/-- How many brackets may be open at a time. -/
def nestingLimit : Nat := 127

/-- Reads a scalar that was not asked for, to say what it is. -/
def scalar : Reading Found := do
  match ← look with
  | some 'n' => eat; literal ['u', 'l', 'l']; return .null
  | some 't' => eat; literal ['r', 'u', 'e']; return .boolean true
  | some 'f' => eat; literal ['a', 'l', 's', 'e']; return .boolean false
  | some '"' => return .string (← string)
  | some c => if c == '-' || c.isDigit then return (← number).found else failPeek .expectedValue
  | none => failPeek .endInValue

/-- Refuses the next value: it is not what was expected. -/
def refuse {α : Type} (expected : String) : Reading α := do
  match ← look with
  | some '[' => failHere (.invalidType .sequence expected)
  | some '{' => failHere (.invalidType .map expected)
  | _ =>
    let found ← scalar
    failHere (.invalidType found expected)

/-! ### Scalars -/

/-- Reads a string. -/
def text (expected : String) : Reading String := do
  match ← look with
  | some '"' => string
  | _ => refuse expected

/-- Reads a truth value. -/
def flag : Reading Bool := do
  match ← look with
  | some 't' => eat; literal ['r', 'u', 'e']; return true
  | some 'f' => eat; literal ['a', 'l', 's', 'e']; return false
  | _ => refuse "a boolean"

/-- Reads a whole number of 64 bits. -/
def natural : Reading UInt64 := do
  match ← look with
  | some c =>
    if c == '-' || c.isDigit then
      match ← number with
      | .natural n => return UInt64.ofNat n
      | .negative n => failHere (.invalidValue (Number.negative n).found "usize")
      | .real t => failHere (.invalidType (.real t) "usize")
    else refuse "usize"
  | none => refuse "usize"

/-- Reads `null`, or the value. -/
def optional {α : Type} (value : Reading α) : Reading (Option α) := do
  match ← look with
  | some 'n' => eat; literal ['u', 'l', 'l']; return none
  | _ => return some (← value)

/-! ### Lists -/

/-- Whether another element follows in a list; if so, its comma has been read. -/
def nextElement (first : Bool) : Reading Bool := do
  match ← look with
  | some ']' => return false
  | some c =>
    if first then return true
    else if c == ',' then
      eat
      match ← look with
      | some ']' => failPeek .trailingComma
      | some _ => return true
      | none => failPeek .endInValue
    else failPeek .expectedListEnd
  | none => failPeek .endInList

/-- Reads the elements of a list. -/
def elements {α : Type} (element : Reading α) : (fuel : Nat) → (first : Bool) → Reading (List α)
  | 0, _ => return []
  | fuel + 1, first => do
    if ← nextElement first then
      let x ← element
      return x :: (← elements element fuel false)
    else return []

/-- Reads the end of a list. -/
def endList : Reading Unit := do
  match ← look with
  | some ']' => eat
  | some ',' =>
    eat
    match ← look with
    | some ']' => failPeek .trailingComma
    | _ => failPeek .trailingCharacters
  | some _ => failPeek .trailingCharacters
  | none => failPeek .endInList

/-- How far an attempt to read the end of a list comes. -/
def listReach (c : Cursor) : Nat :=
  let c := c.skipSpace
  match c.rest.head? with
  | some ']' => c.drop.offset
  | some ',' => c.drop.skipSpace.offset
  | _ => c.offset

/-- Reads what stands between the brackets of a list, and the brackets. -/
def inList {α : Type} (expected : String) (content : Option (Reading α)) : Reading α := do
  match ← look with
  | some '[' =>
    match content with
    | some r =>
      eat
      enclosed r endList listReach
    | none => failPeek .nestedTooDeep
  | _ => refuse expected

/-- Reads a list. -/
def list {α : Type} (element : Option (Reading α)) : Reading (List α) :=
  inList "a sequence" (element.map fun r => do elements r (← rounds) true)

/-- Reads a list of exactly two elements. -/
def pair {α : Type} (element : Option (Reading α)) : Reading (α × α) :=
  inList expected (element.map fun r => do
    if ← nextElement true then
      let x ← r
      if ← nextElement false then
        return (x, ← r)
      else failPending (.invalidLength 1 expected)
    else failPending (.invalidLength 0 expected))
where
  /-- What a message calls a pair. -/
  expected : String := "a tuple of size 2"

/-! ### Records -/

/-- A field of a record, and how its value goes into the draft `σ` of one. -/
structure RecordField (σ : Type) where
  name : String
  read : σ → Reading σ

/-- The two ways of writing a record. -/
inductive Form where
  | object
  | list
deriving DecidableEq, Repr

/-- What a message calls a record, and the number of its fields. -/
structure Title where
  name : String
  size : Nat

/-- The fault of a record without a field that it needs, its place counted from zero. -/
def Form.lacks (form : Form) (title : Title) (field : String) (index : Nat) : Fault :=
  match form with
  | object => .missingField field
  | list => .invalidLength index (title.name ++ " with " ++ toString title.size ++ " elements")

/-- Whether another entry follows in an object; if so, its key comes next. -/
def nextEntry (first : Bool) : Reading Bool := do
  match ← look with
  | some '}' => return false
  | some c =>
    if first then
      if c == '"' then return true else failPeek .keyNotString
    else if c == ',' then
      eat
      match ← look with
      | some '"' => return true
      | some '}' => failPeek .trailingComma
      | some _ => failPeek .keyNotString
      | none => failPeek .endInValue
    else failPeek .expectedObjectEnd
  | none => failPeek .endInObject

/-- Reads the entries of an object. Unknown keys are passed over; a known key may stand once. -/
def entries {σ : Type} (fields : List (RecordField σ)) :
    (fuel : Nat) → (first : Bool) → (seen : List String) → σ → Reading σ
  | 0, _, _, draft => return draft
  | fuel + 1, first, seen, draft => do
    if ← nextEntry first then
      let key ← string
      match fields.find? (·.name == key) with
      | none =>
        colon
        skipValue
        entries fields fuel false seen draft
      | some f =>
        if seen.contains key then failPending (.duplicateField key)
        else
          colon
          entries fields fuel false (key :: seen) (← f.read draft)
    else return draft

/-- Reads the fields of a record one after another, as long as there are elements. -/
def positions {σ : Type} : List (RecordField σ) → (first : Bool) → σ → Reading σ
  | [], _, draft => return draft
  | f :: fs, first, draft => do
    if ← nextElement first then positions fs false (← f.read draft) else return draft

/-- Reads the end of an object. -/
def endObject : Reading Unit := do
  match ← look with
  | some '}' => eat
  | some ',' => failPeek .trailingComma
  | some _ => failPeek .trailingCharacters
  | none => failPeek .endInObject

/-- How far an attempt to read the end of an object comes. -/
def objectReach (c : Cursor) : Nat :=
  let c := c.skipSpace
  if c.rest.head? = some '}' then c.drop.offset else c.offset

/-- Turns a draft into the record, or leaves the fault to the bracket around it. -/
def conclude {α : Type} : Except Fault α → Reading α
  | .ok x => return x
  | .error fault => failPending fault

/-- Reads a record, starting from the draft `blank`. -/
def record {σ α : Type} (title : Title) (fields : Option (List (RecordField σ))) (blank : σ)
    (finish : Form → σ → Except Fault α) : Reading α := do
  match ← look with
  | some '{' =>
    match fields with
    | some fs =>
      eat
      enclosed (do conclude (finish .object (← entries fs (← rounds) true [] blank)))
        endObject objectReach
    | none => failPeek .nestedTooDeep
  | some '[' =>
    match fields with
    | some fs =>
      eat
      enclosed (do conclude (finish .list (← positions fs true blank))) endList listReach
    | none => failPeek .nestedTooDeep
  | _ => refuse title.name

/-! ### Alternatives -/

/-- One of several alternatives: what its bare name stands for, and how its content is read. -/
structure Choice (α : Type) where
  name : String
  bare : Reading α
  content : Reading α

/-- Reads the name of one of the alternatives; the next character is its opening quote. -/
def choose {α : Type} (choices : List (Choice α)) : Reading (Choice α) := do
  let name ← string
  match choices.find? (·.name == name) with
  | some c => return c
  | none => failHere (.unknownName name (choices.map (·.name)))

/-- Reads the one key of an object, which is the name of an alternative. -/
def chooseKey {α : Type} (choices : List (Choice α)) : Reading (Choice α) := do
  match ← look with
  | some '"' => choose choices
  | some '}' => failPeek .expectedValue
  | some _ => failPeek .keyNotString
  | none => failPeek .endInObject

/-- Reads an alternative: a bare name, or an object whose one key is the name and whose value is the
content. `roomy` says whether the nesting limit leaves room for the object. -/
def alternative {α : Type} (roomy : Bool) (choices : List (Choice α)) : Reading α := do
  match ← look with
  | some '"' => (← choose choices).bare
  | some '{' =>
    if roomy then
      eat
      let c ← chooseKey choices
      colon
      let x ← c.content
      match ← look with
      | some '}' => eat; return x
      | some _ => failHere .expectedValue
      | none => failPeek .endInObject
    else failPeek .nestedTooDeep
  | some _ => failPeek .expectedValue
  | none => failPeek .endInValue

/-- Reads the `null` that stands for no content. -/
def nothing : Reading Unit := do
  match ← look with
  | some 'n' => eat; literal ['u', 'l', 'l']
  | _ => refuse "unit"

/-- Reads one of the listed values, each by its name. -/
def oneOf {α : Type} (roomy : Bool) (name : α → String) (values : List α) : Reading α :=
  alternative roomy (values.map fun v => ⟨name v, return v, do nothing; return v⟩)

end ThreadAffinity.Json
