import ThreadAffinity.CallPolicy
import ThreadAffinity.Outside
import ThreadAffinity.Roster

/-!
Declared tags: what follows from annotations alone.

A member has the tag of its own annotation, else that of the first overridden member that has a tag,
else that of its type's annotation, else none. It must honour every overridden member with a tag:
whoever calls through that member runs on its tag, and has to be allowed to call the override. A
member that breaks the obligation is reported and keeps its tag.

Overridden members of the same file are settled first. The search remembers what it has settled
(`Search.settled`) and the symbols that it stands on, so that every member is settled once and a
loop is noticed. A step down into the file puts one more member on the path, so a depth of one more
than the number of members always suffices. -/

namespace ThreadAffinity

/-- The state of the search through a file. -/
structure Search where
  /-- The symbols that the search stands on. -/
  path : List Symbol := []
  /-- The members that are settled, latest first, with their tags. -/
  settled : List (Symbol × Option SourcedTag) := []
  /-- The broken obligations, in the order of their discovery. -/
  findings : List Finding := []
  log : List Event := []
deriving Inhabited

namespace Search

/-- What has been settled about a member. -/
def settled? (σ : Search) (s : Symbol) : Option (Option SourcedTag) := σ.settled.lookup s

/-- Steps onto a symbol. -/
def enter (σ : Search) (s : Symbol) : Search := { σ with path := s :: σ.path }

/-- Steps off a symbol. -/
def leave (σ : Search) (s : Symbol) : Search := { σ with path := σ.path.erase s }

/-- Adds a line to the log. -/
def note (σ : Search) (e : Event) : Search := { σ with log := σ.log ++ [e] }

/-- Adds findings. -/
def report (σ : Search) (fs : List Finding) : Search := { σ with findings := σ.findings ++ fs }

/-- Settles a member. -/
def settle (σ : Search) (s : Symbol) (tag : Option SourcedTag) : Search :=
  { σ with settled := (s, tag) :: σ.settled }

/-- The part of the state that a search beyond the file carries along. -/
def trail (σ : Search) : Trail := ⟨σ.path, σ.log⟩

/-- The state after a search beyond the file. -/
def follow (σ : Search) (t : Trail) : Search := { σ with path := t.path, log := t.log }

end Search

/-- An overridden member that has a tag. -/
structure Obligation where
  tag : Tag
  overridden : Symbol
deriving DecidableEq, Repr

namespace Declaration

/-- The member's tag, given its obligations. -/
def declaredTag (d : Declaration) (obligations : List Obligation) : Option SourcedTag :=
  match d.member.tag, obligations with
  | some written, _ => some ⟨written.tag, .explicit⟩
  | none, o :: _ => some ⟨o.tag, .inherited⟩
  | none, [] => d.typeTag.map (⟨·, .typeLevel⟩)

/-- Whether the member's annotation waives its obligations. -/
def waives (d : Declaration) : Bool := d.member.tag.any (·.ignoreParent)

/-- The finding of a broken obligation. -/
def conflict (d : Declaration) (declared : Tag) (o : Obligation) : Finding :=
  ⟨.conflictingOverride d.member.symbol o.overridden declared o.tag, d.member.span⟩

/-- The findings of all broken obligations. -/
def conflicts (d : Declaration) (policy : CallPolicy) (obligations : List Obligation) :
    List Finding :=
  match d.declaredTag obligations with
  | none => []
  | some t =>
    if d.waives then []
    else (obligations.filter fun o => !policy.honours o.tag t.tag).map (d.conflict t.tag)

end Declaration

/-- What a search for declared tags looks at. -/
structure Resolver where
  policy : CallPolicy
  roster : Roster
  outside : Outside

namespace Resolver

/-- The obligations of a member that overrides the given ones; `one` finds the tag of each. -/
def obligations (one : Symbol → Search → Option (Option Tag × Search)) :
    List Symbol → Search → Option (List Obligation × Search)
  | [], σ => some ([], σ)
  | p :: ps, σ =>
    match one p σ with
    | none => none
    | some (found, σ') =>
      match obligations one ps σ' with
      | none => none
      | some (os, σ'') => some ((found.map (⟨·, p⟩)).toList ++ os, σ'')

/-- The tag of an overridden member: settled in the file if it is declared there, else searched for
outside. -/
def overriddenTag (r : Resolver)
    (settle : Symbol → Search → Option (Option SourcedTag × Search)) (p : Symbol) (σ : Search) :
    Option (Option Tag × Search) :=
  if r.roster.contains p then (settle p σ).map fun found => (found.1.map (·.tag), found.2)
  else
    let found := r.outside.tagOf p σ.trail
    some (found.1, σ.follow found.2)

/-- Settles a member, at most `depth` members deep; `none` when that is not deep enough. -/
def settle (r : Resolver) : (depth : Nat) → Symbol → Search → Option (Option SourcedTag × Search)
  | 0, _, _ => none
  | depth + 1, s, σ =>
    match σ.settled? s with
    | some tag => some (tag, σ)
    | none =>
      match r.roster.find? s with
      | none => some (none, σ)
      | some d =>
        if σ.path.contains s then some (none, σ.note (.overrideLoop s))
        else
          match obligations (r.overriddenTag (r.settle depth)) d.member.overrides (σ.enter s) with
          | none => none
          | some (os, σ') =>
            let tag := d.declaredTag os
            some (tag, ((σ'.report (d.conflicts r.policy os)).leave s).settle s tag)

/-- A depth at which no member fails to be settled. -/
def depth (r : Resolver) : Nat := r.roster.size + 1

/-- Settles one more member, and records its tag. -/
def settleNext (r : Resolver) (state : TagMap × Search) (s : Symbol) : TagMap × Search :=
  match r.settle r.depth s { state.2 with path := [] } with
  | some (some tag, σ) => (state.1.putNew s tag, σ)
  | some (none, σ) => (state.1, σ)
  | none => state

/-- Settles every member, in order. -/
def settleAll (r : Resolver) : TagMap × Search := r.roster.symbols.foldl r.settleNext (.empty, {})

end Resolver

/-- What the annotations of a file say. -/
structure DeclaredTags where
  /-- The tags of the members that have one. -/
  tags : TagMap
  /-- The broken obligations, in the order of their discovery. -/
  findings : List Finding
  log : List Event

/-- The declared tags of a file. -/
def SourceUnit.declaredTags (u : SourceUnit) (policy : CallPolicy) (outside : Outside) :
    DeclaredTags :=
  let roster := u.roster outside.exclusions
  let (tags, σ) := (Resolver.mk policy roster outside).settleAll
  { tags
    findings := σ.findings
    log := u.rosterEvents outside.exclusions ++ σ.log ++
      [.declaredResolved u.path roster.size tags.size] }

end ThreadAffinity
