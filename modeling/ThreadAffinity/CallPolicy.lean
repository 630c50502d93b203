import ThreadAffinity.SetupError

/-!
Which thread may call which.

Universal code may be called from everywhere, and every thread may call itself. Beyond that a policy
has bridges: directed edges that let code of one tag call code of another. The relation is a table
and not an order, since bridges are neither symmetric nor transitive. -/

namespace ThreadAffinity

/-- The legal calls, and the bridges that were laid on top of the strict rule. -/
structure CallPolicy where
  /-- Whether code of the first tag may call code of the second. -/
  permits : Tag → Tag → Bool
  /-- The bridges that added an edge, in the order in which they were laid. -/
  bridges : List (Tag × Tag)

namespace CallPolicy

/-- The bridges of a policy that nobody configured: event-loop code is toolkit code. -/
def standardBridges : List (Tag × Tag) := [(.fxPlatform, .fx)]

/-- The policy without bridges. -/
def strict : CallPolicy := ⟨fun caller callee => callee.isUniversal || caller == callee, []⟩

/-- Lets code of one tag call code of another. Universal code has no thread to offer, so no bridge
may lead from it to a thread. -/
def lay (p : CallPolicy) (source target : Tag) : Except SetupError CallPolicy :=
  if source.isUniversal && !target.isUniversal then .error (.refusedBridge source target)
  else if p.permits source target then .ok p
  else
    .ok ⟨fun a b => p.permits a b || (a == source && b == target), p.bridges ++ [(source, target)]⟩

/-- The strict policy with the bridges laid one after another. -/
def ofBridges (bridges : List (Tag × Tag)) : Except SetupError CallPolicy :=
  bridges.foldlM (fun p b => p.lay b.1 b.2) strict

/-- The policy that nobody configured. -/
def standard : CallPolicy := (ofBridges standardBridges).toOption.getD strict

instance : Inhabited CallPolicy := ⟨standard⟩

/-- Whether an override tagged `declared` honours an overridden member tagged `inherited`: callers
who go through the overridden member run on its tag. -/
def honours (p : CallPolicy) (inherited declared : Tag) : Bool := p.permits inherited declared

end CallPolicy

end ThreadAffinity
