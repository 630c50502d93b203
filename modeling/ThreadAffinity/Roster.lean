import ThreadAffinity.Event
import ThreadAffinity.Exclusions

/-!
The members of a source file.

A roster lists every member that is not left out, those of anonymous classes included, in the order
in which a reader meets them. Of several members with one symbol the first counts. -/

namespace ThreadAffinity

/-- A member, and the annotation of its type. -/
structure Declaration where
  member : Member
  typeTag : Option Tag

/-- What a reader meets on the way through a file. -/
inductive Sighting where
  /-- A type that is left out. -/
  | excluded (typeName : String)
  | declared (declaration : Declaration)

mutual

/-- What a reader meets in a type. -/
def TypeDef.sightings (x : Exclusions) : TypeDef → List Sighting
  | { name, tag, members, .. } =>
    if x.covers name then [.excluded name] else memberSightings x (tag.map (·.tag)) members

/-- What a reader meets in the members of a type with the given annotation. -/
def memberSightings (x : Exclusions) (typeTag : Option Tag) : List Member → List Sighting
  | [] => []
  | m :: ms => m.sightings x typeTag ++ memberSightings x typeTag ms

/-- What a reader meets in a member: first itself. -/
def Member.sightings (x : Exclusions) (typeTag : Option Tag) : Member → List Sighting
  | m@{ body, .. } => .declared ⟨m, typeTag⟩ :: bodySightings x body

/-- What a reader meets in a body. -/
def bodySightings (x : Exclusions) : List Expr → List Sighting
  | [] => []
  | e :: es => e.sightings x ++ bodySightings x es

/-- What a reader meets in an expression. -/
def Expr.sightings (x : Exclusions) : Expr → List Sighting
  | .use .. => []
  | .lambda _ body _ => bodySightings x body
  | .anonymous type => type.sightings x
  | .block body => bodySightings x body

end

/-- What a reader meets in a file. -/
def SourceUnit.sightings (x : Exclusions) (u : SourceUnit) : List Sighting :=
  u.types.flatMap (·.sightings x)

/-- The members of a file, each symbol once. -/
structure Roster where
  declarations : List Declaration := []

namespace Roster

/-- The declaration of a symbol. -/
def find? (r : Roster) (s : Symbol) : Option Declaration :=
  r.declarations.find? (·.member.symbol = s)

/-- Whether the symbol is declared in the file. -/
def contains (r : Roster) (s : Symbol) : Bool := (r.find? s).isSome

/-- The symbols of the members, in order. -/
def symbols (r : Roster) : List Symbol := r.declarations.map (·.member.symbol)

/-- The number of members. -/
def size (r : Roster) : Nat := r.declarations.length

/-- Adds a declaration, unless its symbol has one. -/
def add (r : Roster) (d : Declaration) : Roster :=
  if r.contains d.member.symbol then r else ⟨r.declarations ++ [d]⟩

/-- The roster after one more sighting. -/
def meet (r : Roster) : Sighting → Roster
  | .excluded _ => r
  | .declared d => r.add d

/-- What one more sighting leaves in the log. -/
def meetEvents (r : Roster) : Sighting → List Event
  | .excluded name => [.typeExcluded name]
  | .declared d => if r.contains d.member.symbol then [.repeatedMember d.member.symbol] else []

/-- Takes in sightings one by one, and says what that leaves in the log. -/
def meetAll : Roster → List Sighting → Roster × List Event
  | r, [] => (r, [])
  | r, s :: ss =>
    let rest := (r.meet s).meetAll ss
    (rest.1, r.meetEvents s ++ rest.2)

end Roster

/-- The roster of a file. -/
def SourceUnit.roster (x : Exclusions) (u : SourceUnit) : Roster :=
  (Roster.meetAll {} (u.sightings x)).1

/-- What drawing up the roster of a file leaves in the log. -/
def SourceUnit.rosterEvents (x : Exclusions) (u : SourceUnit) : List Event :=
  (Roster.meetAll {} (u.sightings x)).2

end ThreadAffinity
