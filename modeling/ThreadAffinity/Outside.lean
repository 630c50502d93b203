import ThreadAffinity.Event
import ThreadAffinity.Exclusions
import ThreadAffinity.Host
import ThreadAffinity.Provenance

/-!
The search for an inherited tag beyond the file under check.

A declaration outside the file gets its tag from the build store if that holds a declared one, else
from the host's own annotation, else from the first of its overridden members that has a tag in the
same sense. The search keeps the symbols that it stands on (`Trail.path`), so an override chain that
bites its own tail is noticed, logged and left. Each step down puts one more host symbol on the
path, which is why a depth of one more than the number of host symbols always suffices. -/

namespace ThreadAffinity

/-- The symbols that a search stands on, and the log so far. -/
structure Trail where
  path : List Symbol := []
  log : List Event := []
deriving DecidableEq, Repr, Inhabited

namespace Trail

/-- Steps onto a symbol. -/
def enter (t : Trail) (s : Symbol) : Trail := { t with path := s :: t.path }

/-- Steps off a symbol. -/
def leave (t : Trail) (s : Symbol) : Trail := { t with path := t.path.erase s }

/-- Adds a line to the log. -/
def note (t : Trail) (e : Event) : Trail := { t with log := t.log ++ [e] }

end Trail

/-- What lies outside the file under check. -/
structure Outside where
  exclusions : Exclusions
  /-- The tags published by files checked earlier in the build. -/
  store : TagMap
  host : HostTable

namespace Outside

/-- The published tag of a symbol, if an annotation stands behind it. -/
def publishedTag? (o : Outside) (s : Symbol) : Option Tag :=
  match o.store.get? s with
  | some t => if t.origin.isDeclared then some t.tag else none
  | none => none

/-- The first tag that the search finds for one of the symbols; `none` when it runs out of depth. -/
def firstTag (search : Symbol → Trail → Option (Option Tag × Trail)) :
    List Symbol → Trail → Option (Option Tag × Trail)
  | [], t => some (none, t)
  | s :: ss, t =>
    match search s t with
    | none => none
    | some (some tag, t') => some (some tag, t')
    | some (none, t') => firstTag search ss t'

/-- The search for the tag of a symbol, at most `depth` symbols deep. -/
def search (o : Outside) : (depth : Nat) → Symbol → Trail → Option (Option Tag × Trail)
  | 0, _, _ => none
  | depth + 1, s, t =>
    if o.exclusions.covers s.owner then some (none, t)
    else
      match o.publishedTag? s with
      | some tag => some (some tag, t)
      | none =>
        match o.host.get? s with
        | none => some (none, t)
        | some ⟨some tag, _⟩ => some (some tag, t)
        | some ⟨none, overrides⟩ =>
          if t.path.contains s then some (none, t.note (.outsideLoop s))
          else
            match firstTag (o.search depth) overrides (t.enter s) with
            | none => none
            | some (found, t') => some (found, t'.leave s)

/-- A depth at which no search gives up. -/
def depth (o : Outside) : Nat := o.host.size + 1

/-- The inherited tag of a symbol from where the trail stands. -/
def tagOf (o : Outside) (s : Symbol) (t : Trail) : Option Tag × Trail :=
  (o.search o.depth s t).getD (none, t)

/-- The first inherited tag of several symbols from where the trail stands. -/
def tagOfFirst (o : Outside) (ss : List Symbol) (t : Trail) : Option Tag × Trail :=
  (firstTag (o.search o.depth) ss t).getD (none, t)

end Outside

end ThreadAffinity
