import ThreadAffinity.Proofs.Places
import ThreadAffinity.Proofs.Report

/-!
Call sites, read from the inside out.

The uses of a file are listed here in reading order, each with its place, whether or not the walk
goes there (`SourceUnit.uses`). The walk turns out to meet those that no type left out stands around,
each with the tag of its place (`SourceUnit.sites_eq`), so the illegal calls of a report are those of
the listed uses (`Checker.illegalCalls_perm`). -/

namespace ThreadAffinity

/-- A use of another declaration, and its place. -/
structure PlacedUse where
  place : Place
  how : Use
  target : Option Symbol
  span : Span
deriving DecidableEq, Repr

namespace PlacedUse

/-- The tag that the use is made on: a method reference may bring its own. -/
def tag (declared : TagMap) (n : PlacedUse) : Tag := n.how.context.getD (n.place.tag declared)

/-- The call site of the use. -/
def site (declared : TagMap) (n : PlacedUse) : CallSite :=
  ⟨n.place.caller, n.tag declared, n.target, n.how.access, n.span⟩

end PlacedUse

/-- The use, if the item is one. -/
def PlacedItem.use? : PlacedItem → Option PlacedUse
  | expr ⟨p, .use how target span⟩ => some ⟨p, how, target, span⟩
  | _ => none

/-- Every use in a file, in reading order. -/
def SourceUnit.uses (u : SourceUnit) : List PlacedUse := u.items.filterMap PlacedItem.use?

theorem PlacedItem.place_of_use? (i : PlacedItem) (n : PlacedUse) (h : i.use? = some n) :
    n.place = i.place := by
  unfold use? at h
  split at h
  · cases h
    rfl
  · cases h

/-- The call sites of a file are those uses in it that no type left out stands around. -/
theorem SourceUnit.sites_eq (u : SourceUnit) (x : Exclusions) (declared : TagMap) :
    (u.visits x declared).filterMap Visit.site? =
      (u.uses.filter (·.place.visible x)).map (·.site declared) := by
  rw [← List.filterMap_eq_map]
  refine u.filterMap_visits x PlacedItem.place_of_use? fun i => ?_
  cases i with
  | member n => exact n.site?_visit declared
  | expr n =>
    refine (n.record?_bind_site? declared).trans ?_
    obtain ⟨p, _ | _ | _ | _⟩ := n <;> rfl

/-! ### The tag of a target -/

/-- The tag of a target: the file's own, else the published one, else that of its host declaration,
else the one at the end of the first override chain from there, else the universal one. -/
inductive CalleeTag (own : TagMap) (o : Outside) (target : Symbol) : Tag → Prop
  | own {t : SourcedTag} : own.get? target = some t → CalleeTag own o target t.tag
  | published {t : SourcedTag} :
    own.get? target = none → o.store.get? target = some t → CalleeTag own o target t.tag
  | annotated {t : Tag} {ps : List Symbol} :
    own.get? target = none → o.store.get? target = none → o.host.get? target = some ⟨some t, ps⟩ →
      CalleeTag own o target t
  | inherited {t : Tag} {ps c : List Symbol} :
    own.get? target = none → o.store.get? target = none → o.host.get? target = some ⟨none, ps⟩ →
      o.FirstChain [target] ps c t → CalleeTag own o target t
  | untagged {ps : List Symbol} :
    own.get? target = none → o.store.get? target = none → o.host.get? target = some ⟨none, ps⟩ →
      (∀ c t, ¬ o.Chain [target] ps c t) → CalleeTag own o target .any
  | unknown :
    own.get? target = none → o.store.get? target = none → o.host.get? target = none →
      CalleeTag own o target .any

namespace CallRules

theorem calleeTag_targetTag (c : CallRules) (target : Symbol) :
    CalleeTag c.own c.outside target (c.targetTag target).tag := by
  unfold targetTag
  cases hown : c.own.get? target with
  | some t => exact .own hown
  | none =>
    cases hstore : c.outside.store.get? target with
    | some t => exact .published hown hstore
    | none =>
      cases hhost : c.outside.host.get? target with
      | none => exact .unknown hown hstore hhost
      | some d =>
        obtain ⟨_ | t, ps⟩ := d
        · dsimp only
          rw [Outside.tagOfFirst_fst]
          cases hfound : ps.findSome? (c.outside.tagFrom [target]) with
          | none =>
            exact .untagged hown hstore hhost (Outside.findSome_tagFrom_eq_none_iff.1 hfound)
          | some t =>
            obtain ⟨chain, hchain⟩ := Outside.findSome_tagFrom_eq_some_iff.1 hfound
            exact .inherited hown hstore hhost hchain
        · exact .annotated hown hstore hhost

/-- A target has one tag, and it is the one that call sites are checked against. -/
theorem calleeTag_iff (c : CallRules) (target : Symbol) (t : Tag) :
    CalleeTag c.own c.outside target t ↔ (c.targetTag target).tag = t := by
  refine ⟨fun h => ?_, fun h => h ▸ c.calleeTag_targetTag target⟩
  unfold targetTag
  cases h with
  | own hown => simp [hown]
  | published hown hstore => simp [hown, hstore]
  | annotated hown hstore hhost => simp [hown, hstore, hhost]
  | inherited hown hstore hhost hchain =>
    have hfound := Outside.findSome_tagFrom_eq_some_iff.2 ⟨_, hchain⟩
    simp [hown, hstore, hhost, Outside.tagOfFirst_fst, hfound]
  | untagged hown hstore hhost hnone =>
    have hfound := Outside.findSome_tagFrom_eq_none_iff.2 hnone
    simp only [hown, hstore, hhost, Outside.tagOfFirst_fst, hfound, Option.getD_none]
  | unknown hown hstore hhost => simp [hown, hstore, hhost]

end CallRules

/-! ### The illegal calls of a report -/

/-- The finding of a use: it is an illegal call when no type left out stands around it, it has a
target, the target is not left out, and the policy does not permit its tag to call the target's. -/
def PlacedUse.illegalCall? (policy : CallPolicy) (x : Exclusions) (declared : TagMap)
    (calleeTag : Symbol → Tag) (n : PlacedUse) : Option Finding :=
  n.target.bind fun target =>
    if n.place.visible x ∧ ¬ x.covers target.owner ∧
        ¬ policy.permits (n.tag declared) (calleeTag target) then
      some ⟨.illegalCall n.place.caller target (n.tag declared) (calleeTag target) n.how.access,
        n.span⟩
    else none

theorem PlacedUse.siteFinding?_site (c : CallRules) (declared : TagMap) (n : PlacedUse) :
    (if n.place.visible c.outside.exclusions then c.siteFinding? (n.site declared) else none) =
      n.illegalCall? c.policy c.outside.exclusions declared fun s => (c.targetTag s).tag := by
  unfold CallRules.siteFinding? CallRules.finding? illegalCall? site
  cases n.target with
  | none => simp
  | some target =>
    simp only [Option.bind_some]
    by_cases hvis : n.place.visible c.outside.exclusions = true
    · by_cases hcov : c.outside.exclusions.covers target.owner = true
      · simp [hcov]
      · by_cases hper : c.policy.permits (n.tag declared) (c.targetTag target).tag = true
        · simp [hper]
        · simp [hvis, hcov, hper]
    · simp [hvis]

theorem filterMap_siteFinding? (c : CallRules) (declared : TagMap) (ns : List PlacedUse) :
    ((ns.filter (·.place.visible c.outside.exclusions)).map (·.site declared)).filterMap
        c.siteFinding? =
      ns.filterMap (·.illegalCall? c.policy c.outside.exclusions declared fun s =>
        (c.targetTag s).tag) := by
  rw [List.filterMap_map, List.filterMap_filter]
  refine List.filterMap_congr fun n _ => ?_
  rw [← PlacedUse.siteFinding?_site]
  rfl

namespace Checker

/-- The illegal calls of a report are, one by one, the illegal calls among the uses of the file. The
tag of a use is read off its place, innermost first, with the declared tags that the file has
against the build before it; the tag of its target comes from the effective tags of the file, then
from the build after its publications, then from the host. -/
theorem illegalCalls_perm (c : Checker) (u : SourceUnit) (host : HostTable) (b : Build) :
    ∃ calleeTag : Symbol → Tag,
      (∀ target t, CalleeTag (c.check u host b).result.tags
        (c.outside (c.check u host b).build.store host) target t ↔ calleeTag target = t) ∧
      ((c.check u host b).result.findings.filter Finding.isIllegalCall).Perm
        (u.uses.filterMap (·.illegalCall? c.policy c.exclusions
          (u.declaredTags c.policy (c.outside b.store host)).tags calleeTag)) := by
  refine ⟨fun target => ((c.callRules u host b).targetTag target).tag,
    fun target t => (c.callRules u host b).calleeTag_iff target t, ?_⟩
  rw [illegalCalls_eq]
  refine (Finding.sort_perm _).trans (.of_eq ?_)
  change ((u.visits c.exclusions (c.declaredTags u host b).tags).filterMap Visit.site?).filterMap _ =
    _
  rw [SourceUnit.sites_eq]
  exact filterMap_siteFinding? (c.callRules u host b) (c.declaredTags u host b).tags u.uses

end Checker

end ThreadAffinity
