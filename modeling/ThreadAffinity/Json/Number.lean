import ThreadAffinity.Decimal.Shortest
import ThreadAffinity.Json.Cursor

/-!
Reading numbers.

A numeral is a sign, digits, and perhaps a fraction and an exponent. Without the latter two it is a
whole number as long as it fits 64 bits: unsigned if it has no sign, signed if it has. Any other
numeral is a floating-point number: its digits, as far as they fit 64 bits, times a power of ten. -/

namespace ThreadAffinity.Json

/-- A number as it is written. -/
structure Numeral where
  negative : Bool
  whole : List Nat
  fraction : Option (List Nat)
  /-- The sign of the exponent, and its digits. -/
  exponent : Option (Bool × List Nat)
deriving DecidableEq, Repr

/-- A number as it is understood. -/
inductive Number where
  | natural (n : Nat)
  /-- A whole number below zero, by its size. -/
  | negative (n : Nat)
  /-- A floating-point number, by its shortest text. -/
  | real (text : String)
deriving DecidableEq, Repr

/-- The largest unsigned 64-bit number. -/
def maxNatural : Nat := Nat.pow 2 64 - 1

/-- The size of the smallest signed 64-bit number. -/
def maxNegative : Nat := Nat.pow 2 63

/-- The largest exponent that is told apart from a larger one. -/
def maxExponent : Nat := Nat.pow 2 31 - 1

/-- The number sort in a message. -/
def Number.found : Number → Found
  | natural n => .integer n
  | negative n => .integer (-(n : Int))
  | real text => .real text

/-- The value of a decimal digit. -/
def digitOf? (c : Char) : Option Nat := if c.isDigit then some (c.toNat - '0'.toNat) else none

/-- The digits at the front of a text. -/
def leadingDigits : List Char → List Nat
  | [] => []
  | c :: cs =>
    match digitOf? c with
    | some d => d :: leadingDigits cs
    | none => []

/-- Reads as many digits as there are. -/
def digits : Reading (List Nat) := fun c =>
  let ds := leadingDigits c.rest
  .ok (ds, ⟨c.rest.drop ds.length, c.offset + ds.length⟩)

/-- Reads the digits in front of the point: a zero alone, or digits that start with another one. -/
def wholeDigits : Reading (List Nat) := do
  match (← peek).bind digitOf? with
  | none => failNext .invalidNumber .endInValue
  | some 0 =>
    eat
    match (← peek).bind digitOf? with
    | some _ => failPeek .invalidNumber
    | none => return [0]
  | some _ => digits

/-- Reads the fraction, if the next character is a point. -/
def fraction : Reading (Option (List Nat)) := do
  if (← peek) = some '.' then
    eat
    let ds ← digits
    if ds.isEmpty then failNext .invalidNumber .endInValue else return some ds
  else return none

/-- Reads a sign, if there is one: `true` for minus. -/
def exponentSign : Reading Bool := do
  match ← peek with
  | some '+' => eat; return false
  | some '-' => eat; return true
  | _ => return false

/-- Reads the exponent, if the next character is its mark. -/
def exponent : Reading (Option (Bool × List Nat)) := do
  match ← peek with
  | some 'e' | some 'E' =>
    eat
    let minus ← exponentSign
    let ds ← digits
    if ds.isEmpty then failNext .invalidNumber .endInValue else return some (minus, ds)
  | _ => return none

/-- Reads a number as it is written. -/
def numeral : Reading Numeral := do
  let minus := (← peek) = some '-'
  if minus then eat
  return ⟨minus, ← wholeDigits, ← fraction, ← exponent⟩

/-! ### The value of a numeral -/

/-- The digits in front of the point as far as they fit, and the number of those left out. -/
def foldWhole : List Nat → (value : Nat) → Nat × Nat
  | [], value => (value, 0)
  | d :: ds, value =>
    if maxNatural < value * 10 + d then (value, ds.length + 1) else foldWhole ds (value * 10 + d)

/-- The digits behind the point as far as they fit, and the number of those taken in. -/
def foldFraction : List Nat → (value taken : Nat) → Nat × Nat
  | [], value, taken => (value, taken)
  | d :: ds, value, taken =>
    if maxNatural < value * 10 + d then (value, taken)
    else foldFraction ds (value * 10 + d) (taken + 1)

/-- The value of exponent digits; if it grows too large, the number of digits up to there. -/
def foldExponent : List Nat → (value read : Nat) → Except Nat Nat
  | [], value, _ => .ok value
  | d :: ds, value, read =>
    if maxExponent < value * 10 + d then .error (read + 1)
    else foldExponent ds (value * 10 + d) (read + 1)

/-- A power of ten as a floating-point number. -/
def tenTo (n : Nat) : Float := Float.ofScientific 1 false n

/-- A small number divided by `10^n`, in steps that a floating-point number can express. -/
def divideByTens : (fuel : Nat) → Float → Nat → Float
  | 0, f, _ => f
  | fuel + 1, f, n =>
    if n ≤ 308 then f / tenTo n else divideByTens fuel (f / tenTo 308) (n - 308)

/-- `value · 10^exponent` as a floating-point number, if it is finite. -/
def scaleFloat (value : Nat) (exponent : Int) : Option Float :=
  let f := (UInt64.ofNat value).toFloat
  if 0 ≤ exponent then
    if 308 < exponent then if value = 0 then some f else none
    else
      let g := f * tenTo exponent.toNat
      if g.isInf then none else some g
  else some (divideByTens 4 f (-exponent).toNat)

/-- The text of a floating-point number with the sign of its numeral. -/
def realText (negative : Bool) (f : Float) : String :=
  Decimal.text (if negative then -f else f).toBits

/-- The number that a numeral stands for. If it is out of range, the number of exponent digits that
show it, or `none` if all of the numeral does. -/
def Numeral.value (n : Numeral) : Except (Option Nat) Number :=
  let (whole, leftOut) := foldWhole n.whole 0
  match n.fraction, n.exponent with
  | none, none =>
    if leftOut = 0 && (!n.negative || (0 < whole && whole ≤ maxNegative)) then
      .ok (if n.negative then .negative whole else .natural whole)
    else finite (scaleFloat whole leftOut)
  | _, _ =>
    let (value, taken) := foldFraction (n.fraction.getD []) whole 0
    let shift : Int := (leftOut : Int) - (taken : Int)
    match n.exponent with
    | none => finite (scaleFloat value shift)
    | some (minus, ds) =>
      match foldExponent ds 0 0 with
      | .ok e => finite (scaleFloat value (if minus then shift - (e : Int) else shift + (e : Int)))
      | .error read =>
        if value ≠ 0 && !minus then .error (some read) else .ok (.real (realText n.negative 0))
where
  /-- The number, unless it is beyond all finite ones. -/
  finite : Option Float → Except (Option Nat) Number
    | some f => .ok (.real (realText n.negative f))
    | none => .error none

/-- Reads a number; the next character is a digit or a minus. -/
def number : Reading Number := do
  let n ← numeral
  match n.value with
  | .ok v => return v
  | .error none => failHere .numberOutOfRange
  | .error (some read) =>
    failBefore .numberOutOfRange ((n.exponent.map fun e => e.2.length).getD 0 - read)

end ThreadAffinity.Json
