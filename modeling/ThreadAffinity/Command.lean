import ThreadAffinity.Checker

/-!
Builds as lists of commands.

A command is one step of a build: a checker starts or ends it or checks a file, or a tag is
published by hand. Running commands gives the outcome of each and the build after it. -/

namespace ThreadAffinity

/-- A step of a build. -/
inductive Command where
  | start (checker : Checker)
  | check (checker : Checker) (file : SourceUnit) (host : HostTable)
  | publish (symbol : Symbol) (tag : SourcedTag)
  | finish (checker : Checker)

/-- What a command comes back with. -/
inductive Outcome where
  | done
  | checked (found : UnitFindings)
  /-- Whether the store took the tag in. -/
  | published (accepted : Bool)

namespace Command

/-- Carries out a command. -/
def perform (b : Build) : Command → Step Outcome
  | start c => (c.start b).map fun _ => .done
  | check c u host => (c.check u host b).map .checked
  | publish s t =>
    ⟨.published b.store.accepts, { b with store := b.store.publish s t }, b.store.publishEvents s⟩
  | finish c => (c.finish b).map fun _ => .done

/-- Carries out commands one after another. -/
def performAll (b : Build) : List Command → List (Step Outcome)
  | [] => []
  | c :: cs =>
    let step := c.perform b
    step :: performAll step.build cs

end Command

end ThreadAffinity
