import ThreadAffinity.CallPolicy
import ThreadAffinity.Effective
import ThreadAffinity.Outside

/-!
Checking call sites against the call policy.

The tag of a target is looked up in the file itself, then in the build store, then with the host. A
target that nobody knows counts as universal. A site without a target, or with one that is left out,
is passed over and counted: what cannot be resolved is not the same as what is legal. -/

namespace ThreadAffinity

/-- What was done with the call sites. -/
structure Tally where
  sites : Nat := 0
  checked : Nat := 0
  skippedUnresolved : Nat := 0
  skippedIgnored : Nat := 0
  /-- Targets with a published tag. -/
  storeHits : Nat := 0
  /-- Targets that the host was asked about. -/
  hostLookups : Nat := 0
  /-- Targets that nobody knew. -/
  degraded : Nat := 0
deriving DecidableEq, Repr, Inhabited

/-- Where the tag of a target was found. -/
inductive Route where
  /-- In the file itself. -/
  | own
  /-- In the build store. -/
  | store
  /-- With the host, which knows the target. -/
  | host
  /-- Nowhere: the host was asked and does not know the target. -/
  | nowhere
deriving DecidableEq, Repr

/-- The tally with one more target looked up. -/
def Tally.count (n : Tally) : Route → Tally
  | .own => n
  | .store => { n with storeHits := n.storeHits + 1 }
  | .host => { n with hostLookups := n.hostLookups + 1 }
  | .nowhere => { n with hostLookups := n.hostLookups + 1, degraded := n.degraded + 1 }

/-- The tag of a target, and where it was found. -/
structure TargetTag where
  tag : Tag
  route : Route
  log : List Event := []

/-- What call sites are checked against. -/
structure CallRules where
  policy : CallPolicy
  /-- The effective tags of the file. -/
  own : TagMap
  outside : Outside

/-- What has become of the call sites so far. -/
structure CallReport where
  tally : Tally := {}
  findings : List Finding := []
  log : List Event := []
deriving Inhabited

namespace CallRules

/-- The tag of a target. -/
def targetTag (c : CallRules) (target : Symbol) : TargetTag :=
  match c.own.get? target with
  | some t => { tag := t.tag, route := .own }
  | none =>
    match c.outside.store.get? target with
    | some t => { tag := t.tag, route := .store }
    | none =>
      match c.outside.host.get? target with
      | some ⟨some tag, _⟩ => { tag, route := .host }
      | some ⟨none, overrides⟩ =>
        let found := c.outside.tagOfFirst overrides { path := [target] }
        { tag := found.1.getD .any, route := .host, log := found.2.log }
      | none => { tag := .any, route := .nowhere, log := [.unknownTarget target] }

/-- The finding of a site whose target has the tag, if the call is illegal. -/
def finding? (c : CallRules) (site : CallSite) (target : Symbol) (tag : Tag) : Option Finding :=
  if c.policy.permits site.callerTag tag then none
  else some ⟨.illegalCall site.caller target site.callerTag tag site.access, site.span⟩

/-- Checks one more site. -/
def checkSite (c : CallRules) (r : CallReport) (site : CallSite) : CallReport :=
  let n := { r.tally with sites := r.tally.sites + 1 }
  match site.target with
  | none =>
    { r with
      tally := { n with skippedUnresolved := n.skippedUnresolved + 1 }
      log := r.log ++ [.siteUnresolved site.span] }
  | some target =>
    if c.outside.exclusions.covers target.owner then
      { r with tally := { n with skippedIgnored := n.skippedIgnored + 1 } }
    else
      let found := c.targetTag target
      { tally := { n with checked := n.checked + 1 }.count found.route
        findings := r.findings ++ (c.finding? site target found.tag).toList
        log := r.log ++ found.log ++
          [.siteChecked site.caller target site.callerTag found.tag] }

/-- Checks a batch of sites on top of an earlier tally. -/
def check (c : CallRules) (tally : Tally) (sites : List CallSite) : CallReport :=
  sites.foldl c.checkSite { tally }

end CallRules

end ThreadAffinity
