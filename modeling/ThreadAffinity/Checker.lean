import ThreadAffinity.CallCheck
import ThreadAffinity.Declared
import ThreadAffinity.Effective
import ThreadAffinity.ListingFile
import ThreadAffinity.Settings.Basic
import ThreadAffinity.TagStore

/-!
Checkers, and the build that they take part in.

A build starts, its files are checked one after another, and it ends. What outlives a file belongs
to the build: the store of published tags and the listing file. Several checkers may share it.
Checking a file resolves its declared tags, infers the effective ones, publishes what other files
may refer to, checks the call sites, and reports all findings in one batch. It never fails. -/

namespace ThreadAffinity

/-- What the checkers of a build share. -/
structure Build where
  store : TagStore := {}
  listing : ListingFile := .missing
deriving Inhabited

/-- A checker that is set up. -/
structure Checker where
  settings : Settings
  policy : CallPolicy
  exclusions : Exclusions

/-- What was found in a file. -/
structure UnitFindings where
  /-- In report order. -/
  findings : List Finding
  /-- The effective tags of the file's members. -/
  tags : TagMap
  lambdas : List LambdaBody
  tally : Tally

namespace UnitFindings

/-- The findings that block a build. -/
def errors (r : UnitFindings) : List Finding := r.findings.filter (·.severity == .error)

/-- The findings that only prompt the author. -/
def advisories (r : UnitFindings) : List Finding := r.findings.filter (·.severity == .advisory)

/-- Whether there is a finding that blocks a build. -/
def hasErrors (r : UnitFindings) : Bool := !r.errors.isEmpty

end UnitFindings

/-- A result, the build afterwards, and what was logged meanwhile. -/
structure Step (α : Type) where
  result : α
  build : Build
  log : List Event

/-- The step with another result. -/
def Step.map {α β : Type} (s : Step α) (f : α → β) : Step β := ⟨f s.result, s.build, s.log⟩

namespace Checker

/-- Whether the checker writes the tag listing. -/
def lists (c : Checker) : Bool := c.settings.listing.isSome

/-- Empties the listing, if the checker writes one. -/
def resetListing (c : Checker) (b : Build) : Build :=
  if c.lists then { b with listing := b.listing.reset } else b

/-- What emptying the listing leaves in the log. -/
def resetEvents (c : Checker) (b : Build) : List Event :=
  if c.lists then b.listing.resetEvents else []

/-- Sets up a checker in a build. The listing of an earlier run does not survive that; settings that
are refused leave the build as it was. -/
def create (settings : Settings) (b : Build) : Except SetupError (Step Checker) := do
  let c : Checker := ⟨settings, ← settings.policy, settings.exclusions⟩
  return ⟨c, c.resetListing b, c.resetEvents b⟩

/-- Starts a build: the store is emptied and opened, and so is the listing. -/
def start (c : Checker) (b : Build) : Step Unit :=
  ⟨(), c.resetListing { b with store := b.store.restart }, c.resetEvents b⟩

/-- Ends a build: the store is sealed. -/
def finish (_ : Checker) (b : Build) : Step Unit :=
  ⟨(), { b with store := b.store.close }, [.buildFinished b.store.tags.size]⟩

/-- What lies outside the file that the checker is about to check. -/
def outside (c : Checker) (store : TagStore) (host : HostTable) : Outside :=
  ⟨c.exclusions, store.tags, host⟩

/-- The tags of a file that are to be published. -/
def publications (e : EffectiveTags) : List (Symbol × SourcedTag) :=
  e.exported.filterMap fun s => (e.tags.get? s).map (s, ·)

/-- Checks a file. -/
def check (c : Checker) (u : SourceUnit) (host : HostTable) (b : Build) : Step UnitFindings :=
  let declared := u.declaredTags c.policy (c.outside b.store host)
  let effective := u.effectiveTags c.exclusions declared.tags c.settings.adviseUnannotated
  let (store, published) := b.store.publishAll (publications effective)
  let calls :=
    CallRules.check ⟨c.policy, effective.tags, c.outside store host⟩ {} effective.sites
  let findings := Finding.sort (declared.findings ++ effective.findings ++ calls.findings)
  let summary : Event := .unitChecked effective.tags.size calls.tally.sites findings.length
  { result := ⟨findings, effective.tags, effective.lambdas, calls.tally⟩
    build :=
      { store, listing := if c.lists then b.listing.append effective.tags else b.listing }
    log := declared.log ++ effective.log ++ published ++ calls.log ++ [summary] ++
      (if c.lists then b.listing.appendEvents else []) }

/-- The diagnostics of a checked file, as its receiver gets them. -/
def reported (u : SourceUnit) (r : UnitFindings) : List Diagnostic := diagnostics u.path r.findings

end Checker

end ThreadAffinity
