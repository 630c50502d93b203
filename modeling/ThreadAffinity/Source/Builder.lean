import ThreadAffinity.Source.Syntax

/-!
Building source files by hand, one step at a time.

Every step returns the changed declaration, so that steps chain. An annotation added here takes the
span of the declaration that it is put on. -/

namespace ThreadAffinity

namespace SourceUnit

/-- A source file without types. -/
def empty (path package : String) : SourceUnit := { path, package }

/-- Adds a type after the others. -/
def addType (u : SourceUnit) (t : TypeDef) : SourceUnit := { u with types := u.types ++ [t] }

end SourceUnit

namespace TypeDef

/-- A type without annotation or members. -/
def empty (name : String) (span : Span) : TypeDef := { name, span }

/-- Annotates the type. -/
def annotated (t : TypeDef) (tag : Tag) : TypeDef := { t with tag := some { tag, span := t.span } }

/-- Adds a member after the others. -/
def addMember (t : TypeDef) (m : Member) : TypeDef := { t with members := t.members ++ [m] }

end TypeDef

namespace Member

/-- A public member without annotation, overrides or body. -/
def plain (kind : MemberKind) (symbol : Symbol) (span : Span) : Member := { symbol, kind, span }

/-- Annotates the member. -/
def annotated (m : Member) (tag : Tag) : Member := { m with tag := some { tag, span := m.span } }

/-- Annotates the member and waives what it inherits. -/
def annotatedAlone (m : Member) (tag : Tag) : Member :=
  { m with tag := some { tag, ignoreParent := true, span := m.span } }

/-- Sets who can refer to the member. -/
def visibleTo (m : Member) (v : Visibility) : Member := { m with visibility := v }

/-- Adds an overridden member after the others. -/
def addOverride (m : Member) (parent : Symbol) : Member :=
  { m with overrides := m.overrides ++ [parent] }

/-- Adds an expression at the end of the body. -/
def addExpr (m : Member) (e : Expr) : Member := { m with body := m.body ++ [e] }

end Member

namespace Expr

/-- A call of a known target. -/
def call (target : Symbol) (span : Span) : Expr := use .call (some target) span

/-- A call whose target the front end could not resolve. -/
def unresolvedCall (span : Span) : Expr := use .call none span

/-- A construction. -/
def construct (target : Symbol) (span : Span) : Expr := use .new (some target) span

/-- A field access. -/
def fieldAccess (target : Symbol) (span : Span) : Expr := use .fieldAccess (some target) span

/-- A method reference, with the tag of the interface it is converted to. -/
def reference (target : Symbol) (context : Option Tag) (span : Span) : Expr :=
  use (.methodRef context) (some target) span

end Expr

end ThreadAffinity
