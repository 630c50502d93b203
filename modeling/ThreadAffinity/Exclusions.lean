import ThreadAffinity.Text.Blank

/-!
Packages left out of the analysis.

A dotted name lies under a package when it is the package itself or a name nested in it by `.` or
`$`: `a.b` covers `a.b`, `a.b.C` and `a.b$1`, but not `a.bc`. A package written with a final dot
covers only what lies strictly below it.

Such a package is matched without its final dot, and the name is then cut behind as many bytes as
the rest of the package has. A cut inside a character leaves no text (`Text.behind?`). -/

namespace ThreadAffinity

/-- The number of bytes that a text is encoded in. -/
def Text.byteCount : List Char → Nat
  | [] => 0
  | c :: cs => c.utf8Size + byteCount cs

/-- What stands behind the first `n` bytes of a text; `none` when they end inside a character or
there are not so many. -/
def Text.behind? : (n : Nat) → List Char → Option (List Char)
  | 0, cs => some cs
  | _ + 1, [] => none
  | n + 1, c :: cs => if c.utf8Size ≤ n + 1 then behind? (n + 1 - c.utf8Size) cs else none

/-- Whether a nested name may go on with these characters. -/
def isNameEnd : List Char → Bool
  | [] => true
  | c :: _ => c == '.' || c == '$'

/-- Whether the dotted name lies under the package, unless a cut goes wrong; nothing lies under the
empty package. -/
def liesUnder? (package name : List Char) : Option Bool :=
  if package.isEmpty then some false
  else if package.getLast? = some '.' then
    let stem := package.dropLast
    if Text.byteCount package < Text.byteCount name && stem.isPrefixOf name then
      (Text.behind? (Text.byteCount stem) name).map fun rest => rest.head? == some '.'
    else some false
  else some ((package.isPrefixOf? name).any isNameEnd)

/-- Whether the dotted name lies under the package. -/
def liesUnder (package name : List Char) : Bool := (liesUnder? package name).getD false

/-- The packages whose declarations are neither resolved nor checked. -/
structure Exclusions where
  packages : List String := []
deriving DecidableEq, Repr, Inhabited

namespace Exclusions

/-- Puts a package in its place in an ascending list. -/
def place (p : String) : List String → List String
  | [] => [p]
  | q :: qs => if q < p then q :: place p qs else p :: q :: qs

/-- The list without the packages that repeat the one before them. -/
def dropRepeats : List String → List String
  | p :: q :: qs => if p = q then dropRepeats (q :: qs) else p :: dropRepeats (q :: qs)
  | qs => qs

/-- The exclusions that a list of texts asks for: each trimmed, blank ones dropped, in ascending
order, each once. -/
def ofTexts (texts : List String) : Exclusions :=
  ⟨dropRepeats (((texts.map Text.trim).filter (· != "")).foldr place [])⟩

/-- Whether code of the qualified type `owner` is left out. -/
def covers (x : Exclusions) (owner : String) : Bool :=
  x.packages.any fun p => liesUnder p.toList owner.toList

/-- Whether nothing is left out. -/
def isEmpty (x : Exclusions) : Bool := x.packages.isEmpty

end Exclusions

end ThreadAffinity
