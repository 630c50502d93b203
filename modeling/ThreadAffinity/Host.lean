import ThreadAffinity.Tag
import ThreadAffinity.SymbolMap

/-!
What the host compiler knows about declarations outside the checked files: libraries, and files that
it will compile later. -/

namespace ThreadAffinity

/-- A declaration of the host. -/
structure HostDecl where
  /-- Its annotation or, failing that, its type's. -/
  tag : Option Tag := none
  /-- The members it overrides, nearest first. -/
  overrides : List Symbol := []
deriving DecidableEq, Repr

/-- The host's symbol table. -/
abbrev HostTable := SymbolMap HostDecl

end ThreadAffinity
