import ThreadAffinity.Text.Quoted

/-!
JSON values, and the text they are written as.

A value is written in a layout, which decides what stands between its parts: over several lines, or
on a single one. Strings escape what JSON makes them escape and nothing else. -/

namespace ThreadAffinity.Json

/-- A JSON value. Numbers are whole; the entries of an object keep their order. -/
inductive Value where
  | null
  | boolean (b : Bool)
  | natural (n : Nat)
  | string (s : String)
  | list (items : List Value)
  | object (entries : List (String × Value))

/-- One character inside a JSON string. -/
def escapeChar (c : Char) : List Char :=
  if c = '"' then ['\\', '"']
  else if c = '\\' then ['\\', '\\']
  else if c = '\x08' then ['\\', 'b']
  else if c = '\x0c' then ['\\', 'f']
  else if c = '\n' then ['\\', 'n']
  else if c = '\r' then ['\\', 'r']
  else if c = '\t' then ['\\', 't']
  else if c.toNat < 0x20 then
    ['\\', 'u', '0', '0', Text.hexDigit (c.toNat / 16), Text.hexDigit (c.toNat % 16)]
  else [c]

/-- A string as it is written. -/
def writeString (s : String) : List Char := '"' :: (s.toList.flatMap escapeChar ++ ['"'])

/-- What stands between the parts of a written value. -/
structure Layout where
  /-- Before each item, given the number of brackets around it, and before a closing bracket. -/
  gap : Nat → List Char
  /-- Behind the colon of an entry. -/
  behindColon : List Char

/-- Every item on a line of its own, two blanks deeper for every bracket. -/
def Layout.indented : Layout := ⟨fun depth => '\n' :: List.replicate (2 * depth) ' ', [' ']⟩

/-- Everything on one line without blanks. -/
def Layout.compact : Layout := ⟨fun _ => [], []⟩

mutual

/-- A value as it is written inside `depth` brackets. -/
def Value.write (l : Layout) (depth : Nat) : Value → List Char
  | .null => ['n', 'u', 'l', 'l']
  | .boolean true => ['t', 'r', 'u', 'e']
  | .boolean false => ['f', 'a', 'l', 's', 'e']
  | .natural n => Nat.toDigits 10 n
  | .string s => writeString s
  | .list [] => ['[', ']']
  | .list (x :: xs) =>
    '[' :: (l.gap (depth + 1) ++ x.write l (depth + 1) ++ writeItems l (depth + 1) xs ++
      l.gap depth ++ [']'])
  | .object [] => ['{', '}']
  | .object (e :: es) =>
    '{' :: (l.gap (depth + 1) ++ writeEntry l (depth + 1) e ++ writeEntries l (depth + 1) es ++
      l.gap depth ++ ['}'])

/-- The further items of a list, each behind a comma. -/
def writeItems (l : Layout) (depth : Nat) : List Value → List Char
  | [] => []
  | x :: xs => ',' :: (l.gap depth ++ x.write l depth ++ writeItems l depth xs)

/-- An entry of an object. -/
def writeEntry (l : Layout) (depth : Nat) : String × Value → List Char
  | (key, x) => writeString key ++ ':' :: (l.behindColon ++ x.write l depth)

/-- The further entries of an object, each behind a comma. -/
def writeEntries (l : Layout) (depth : Nat) : List (String × Value) → List Char
  | [] => []
  | e :: es => ',' :: (l.gap depth ++ writeEntry l depth e ++ writeEntries l depth es)

end

/-- The text of a value over several lines. -/
def Value.text (x : Value) : String := String.ofList (x.write .indented 0)

/-- The text of a value on one line. -/
def Value.compactText (x : Value) : String := String.ofList (x.write .compact 0)

end ThreadAffinity.Json
