import ThreadAffinity.Tag
import ThreadAffinity.Symbol
import ThreadAffinity.Span

/-!
What a front end hands over: one analysed source file.

Nothing is parsed here. The front end has resolved every call target, so a body keeps only the parts
that matter for thread affinity: uses of other declarations, lambdas, anonymous classes and blocks.
Types, members and expressions contain one another, and the tree they form is finite. -/

namespace ThreadAffinity

/-- A thread tag written by the author. -/
structure WrittenTag where
  tag : Tag
  /-- Waives the obligation of an overridden member. -/
  ignoreParent : Bool := false
  span : Span := {}
deriving DecidableEq, Repr

/-- What sort of declaration a member is. -/
inductive MemberKind where
  | method
  | constructor
  /-- Its body is the initialiser. -/
  | field
deriving DecidableEq, Repr

/-- Who can refer to a member. -/
inductive Visibility where
  | pub
  | prot
  | pkg
  | priv
deriving DecidableEq, Repr, Inhabited

/-- Whether other source files can refer to the member. -/
def Visibility.isExported : Visibility → Bool
  | priv => false
  | _ => true

/-- How a call site touches its target. -/
inductive Access where
  | call
  | new
  | fieldAccess
  | methodRef
deriving DecidableEq, Repr

/-- The verb for the access, as it stands after `cannot`. -/
def Access.verb : Access → String
  | call => "call"
  | new => "construct"
  | fieldAccess => "access"
  | methodRef => "reference"

/-- A use of another declaration. A method reference also has the tag of the functional interface
that it is converted to, if that carries one. -/
inductive Use where
  | call
  | new
  | fieldAccess
  | methodRef (context : Option Tag)
deriving DecidableEq, Repr

/-- The sort of access that a use makes. -/
def Use.access : Use → Access
  | call => .call
  | new => .new
  | fieldAccess => .fieldAccess
  | methodRef _ => .methodRef

/-- The tag that a use brings with it. -/
def Use.context : Use → Option Tag
  | methodRef context => context
  | _ => none

mutual

/-- A class, interface, enumeration or anonymous class body. -/
structure TypeDef where
  /-- The qualified name. -/
  name : String
  /-- The annotation that members without one fall back on. -/
  tag : Option WrittenTag := none
  members : List Member := []
  span : Span := {}

/-- A method, constructor or field. -/
structure Member where
  symbol : Symbol
  kind : MemberKind
  visibility : Visibility := .pub
  tag : Option WrittenTag := none
  /-- The members it overrides or implements, nearest first. -/
  overrides : List Symbol := []
  body : List Expr := []
  span : Span := {}

/-- A part of a body. A use without a target is one that the front end could not resolve. -/
inductive Expr where
  | use (how : Use) (target : Option Symbol) (span : Span)
  | lambda (context : Option Tag) (body : List Expr) (span : Span)
  | anonymous (type : TypeDef)
  | block (body : List Expr)

end

/-- One source file: its path, its package and its types, named nested ones flattened. -/
structure SourceUnit where
  path : String
  package : String := ""
  types : List TypeDef := []

end ThreadAffinity
