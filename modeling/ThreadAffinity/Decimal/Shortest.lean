/-!
The shortest decimal text of a binary floating-point number.

A finite number is `m · 2^q` for whole `m` and `q`, and stands for every real number that rounds to
it: an interval around it whose ends belong to it when `m` is even. Of the decimal numbers in the
interval those with the fewest digits are chosen, and of these the nearest. -/

namespace ThreadAffinity.Decimal

/-- A positive binary floating-point number `mantissa · 2^exponent`. `narrowBelow` holds at a power
of two, where the next smaller number is only half as far away as the next larger one. -/
structure Binary where
  mantissa : Nat
  exponent : Int
  narrowBelow : Bool
deriving DecidableEq, Repr

/-- The number that the bits of a positive double stand for. -/
def Binary.ofBits (bits : UInt64) : Binary :=
  let fraction : Nat := bits.toNat % Nat.pow 2 52
  let field : Nat := bits.toNat / Nat.pow 2 52 % Nat.pow 2 11
  if field = 0 then ⟨fraction, -1074, false⟩
  else ⟨Nat.pow 2 52 + fraction, (field : Int) - 1075, fraction == 0 && 1 < field⟩

/-- A decimal number `digits · 10^exponent`. -/
structure Scaled where
  digits : Nat
  exponent : Int
deriving DecidableEq, Repr

/-- A positive fraction. -/
structure Ratio where
  num : Nat
  den : Nat

/-- `n · base^e`, for an exponent of either sign. -/
def Ratio.scale (n base : Nat) (e : Int) : Ratio :=
  if 0 ≤ e then ⟨n * base.pow e.toNat, 1⟩ else ⟨n, base.pow (-e).toNat⟩

/-- How two fractions compare. -/
def Ratio.cmp (a b : Ratio) : Ordering := compare (a.num * b.den) (b.num * a.den)

/-- Whether the decimal number rounds to the binary one. Four times the mantissa makes room for the
midpoints between neighbours. -/
def Binary.holds (b : Binary) (d : Scaled) : Bool :=
  let x := Ratio.scale d.digits 10 d.exponent
  let low := Ratio.scale (4 * b.mantissa - if b.narrowBelow then 1 else 2) 2 (b.exponent - 2)
  let high := Ratio.scale (4 * b.mantissa + 2) 2 (b.exponent - 2)
  let closed := b.mantissa % 2 == 0
  (low.cmp x == .lt || closed && low.cmp x == .eq) &&
    (x.cmp high == .lt || closed && x.cmp high == .eq)

/-- The least `k`, at most `fuel` further on, with `num · 10^k ≥ den`. -/
def leadingZeros (num den : Nat) : (fuel k : Nat) → Nat
  | 0, k => k
  | fuel + 1, k => if den ≤ num then k else leadingZeros (num * 10) den fuel (k + 1)

/-- The exponent of the first decimal digit of a positive fraction. -/
def Ratio.magnitude (r : Ratio) : Int :=
  if r.den ≤ r.num then ((Nat.toDigits 10 (r.num / r.den)).length : Int) - 1
  else -(leadingZeros r.num r.den 400 0 : Int)

/-- The nearest of the two neighbours of the number on the grid of multiples of `10^e`, if one of
them rounds to it. -/
def Binary.onGrid (b : Binary) (e : Int) : Option Scaled :=
  let v := Ratio.scale b.mantissa 2 b.exponent
  let unit := Ratio.scale 1 10 e
  let below := v.num * unit.den / (v.den * unit.num)
  let twice := 2 * (v.num * unit.den)
  let middle := (2 * below + 1) * (v.den * unit.num)
  let lower : Scaled := ⟨below, e⟩
  let upper : Scaled := ⟨below + 1, e⟩
  match b.holds lower, b.holds upper with
  | true, true =>
    if twice < middle || (twice == middle && below % 2 == 0) then some lower else some upper
  | true, false => some lower
  | false, true => some upper
  | false, false => none

/-- The first hit among grids of more and more digits. -/
def Binary.search (b : Binary) (top : Int) : (fuel digits : Nat) → Scaled
  | 0, _ => ⟨b.mantissa, b.exponent⟩
  | fuel + 1, digits =>
    match b.onGrid (top - digits + 1) with
    | some d => d
    | none => b.search top fuel (digits + 1)

/-- The number without trailing zero digits. -/
def Scaled.strip : (fuel : Nat) → Scaled → Scaled
  | 0, d => d
  | fuel + 1, d =>
    if d.digits ≠ 0 && d.digits % 10 == 0 then strip fuel ⟨d.digits / 10, d.exponent + 1⟩ else d

/-- The shortest decimal number that rounds to a positive binary one; 17 digits always suffice. -/
def Binary.shortest (b : Binary) : Scaled :=
  (b.search (Ratio.scale b.mantissa 2 b.exponent).magnitude 17 1).strip 20

/-- The text of a positive decimal number: positional from `0.00001` up to sixteen digits before the
point, always with a point; otherwise one digit, the rest after a point, and a signed exponent. -/
def Scaled.text (d : Scaled) : String :=
  let ds := Nat.toDigits 10 d.digits
  let top : Int := d.exponent + (ds.length : Int) - 1
  if 0 ≤ d.exponent && top < 16 then
    String.ofList (ds ++ List.replicate d.exponent.toNat '0') ++ ".0"
  else if 0 ≤ top && top < 16 then
    String.ofList (ds.take (top.toNat + 1)) ++ "." ++ String.ofList (ds.drop (top.toNat + 1))
  else if -5 ≤ top && top < 0 then
    "0." ++ String.ofList (List.replicate ((-top).toNat - 1) '0' ++ ds)
  else
    let rest := ds.drop 1
    String.ofList (ds.take 1) ++ (if rest.isEmpty then "" else "." ++ String.ofList rest) ++ "e" ++
      (if top < 0 then "-" else "+") ++ toString top.natAbs

/-- The shortest text of a finite double. -/
def text (bits : UInt64) : String :=
  let sign := if bits.toNat / Nat.pow 2 63 = 1 then "-" else ""
  let size := bits.toNat % Nat.pow 2 63
  if size = 0 then sign ++ "0.0" else sign ++ (Binary.ofBits size.toUInt64).shortest.text

end ThreadAffinity.Decimal
