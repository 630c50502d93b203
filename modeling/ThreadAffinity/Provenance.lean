import ThreadAffinity.Tag
import ThreadAffinity.SymbolMap

/-!
Tags together with where they come from.

A tag that goes back to an annotation (`Origin.isDeclared`) can be passed on to overriding members;
one that was read off the surroundings of a declaration, or assumed, cannot. -/

namespace ThreadAffinity

/-- Where a declaration's tag comes from. -/
inductive Origin where
  /-- An annotation on the declaration itself. -/
  | explicit
  /-- An overridden member. -/
  | inherited
  /-- An annotation on the declaring type. -/
  | typeLevel
  /-- The functional interface of a lambda or method reference. -/
  | context
  /-- The declaration around a nested body. -/
  | enclosing
  /-- Nothing: the universal tag was assumed. -/
  | assumed
deriving DecidableEq, Repr

namespace Origin

/-- Every origin, strongest first. -/
def all : List Origin := [explicit, inherited, typeLevel, context, enclosing, assumed]

/-- The word under which an origin is written. -/
def name : Origin → String
  | explicit => "Explicit"
  | inherited => "Inherited"
  | typeLevel => "TypeLevel"
  | context => "Context"
  | enclosing => "Enclosing"
  | assumed => "Default"

/-- The origin of exactly this name. -/
def ofName? (s : String) : Option Origin := all.find? (·.name == s)

/-- Whether an annotation stands behind the tag. -/
def isDeclared : Origin → Bool
  | explicit | inherited | typeLevel => true
  | context | enclosing | assumed => false

end Origin

/-- A tag and its origin. -/
structure SourcedTag where
  tag : Tag
  origin : Origin
deriving DecidableEq, Repr

/-- The tags of some declarations, in symbol order. -/
abbrev TagMap := SymbolMap SourcedTag

/-- One line per declaration: its symbol, a blank and its tag. -/
def TagMap.listing (t : TagMap) : String :=
  String.join (t.entries.map fun e => e.1.text ++ " " ++ e.2.tag.name ++ "\n")

end ThreadAffinity
