import ThreadAffinity.Proofs.Conflicts
import ThreadAffinity.Proofs.Recheck
import ThreadAffinity.Proofs.Runs

/-!
Where the inherited tags of a build come from.

A tag that a member inherits may have come a long way: through members of other files, which were
checked earlier and published it, and through declarations of the hosts. But it has come from an
annotation. From the member a chain of overrides leads to a symbol that is annotated with the tag,
every step of which stands in a file of the build or in a host declaration that one of its checks
asked for (`Command.inherited_traced`). A tag that was assumed, or read off the surroundings, is
never inherited. -/

namespace ThreadAffinity

/-- A check of a file, and the build that it finds. -/
structure FileCheck where
  checker : Checker
  file : SourceUnit
  host : HostTable
  before : Build

namespace FileCheck

/-- The tags in the report. -/
def tags (k : FileCheck) : TagMap := (k.checker.check k.file k.host k.before).result.tags

/-- What lies outside the file. -/
def outside (k : FileCheck) : Outside := k.checker.outside k.before.store k.host

/-- The search for the declared tags of the file. -/
def resolver (k : FileCheck) : Resolver :=
  ⟨k.checker.policy, k.file.roster k.checker.exclusions, k.outside⟩

/-- The first declaration of a member of the file. -/
def member? (k : FileCheck) (s : Symbol) : Option Declaration :=
  k.file.member? k.checker.exclusions s

/-- Whether the check shows that `s` overrides `p`: as a member of the file, or in a declaration
that the host is asked for. -/
def Overrides (k : FileCheck) (s p : Symbol) : Prop :=
  (∃ d, k.member? s = some d ∧ p ∈ d.member.overrides) ∨
    k.resolver.Asks s ∧ k.outside.HostOverrides s p

/-- Whether the check shows that `s` is annotated with the tag: as a member of the file, itself or
through its type, and the report says so; or in a declaration that the host is asked for. -/
def Annotated (k : FileCheck) (s : Symbol) (t : Tag) : Prop :=
  (∃ d, k.member? s = some d ∧
    ((∃ w, d.member.tag = some w ∧ w.tag = t) ∧ k.tags.get? s = some ⟨t, .explicit⟩ ∨
      (d.member.tag = none ∧ d.typeTag = some t) ∧ k.tags.get? s = some ⟨t, .typeLevel⟩)) ∨
    k.resolver.Asks s ∧ k.outside.HostTagged s t

/-- Whether a member of the file has the tag from an entry of its list of overridden symbols: that
of another member, whose tag an annotation stands behind, or one that is found beyond the file. -/
def PassedOn (k : FileCheck) (s : Symbol) (t : Tag) : Prop :=
  ∃ d, k.member? s = some d ∧ ∃ p ∈ d.member.overrides,
    (∃ e, k.tags.get? p = some e ∧ e.tag = t ∧ e.origin.isDeclared = true) ∨
      k.member? p = none ∧ k.outside.Offers p t

end FileCheck

/-- Whether some of the checks show that `s` overrides `p`. -/
def OverridesIn (ks : List FileCheck) (s p : Symbol) : Prop := ∃ k ∈ ks, k.Overrides s p

/-- Whether some of the checks show that `s` is annotated with the tag. -/
def AnnotatedIn (ks : List FileCheck) (s : Symbol) (t : Tag) : Prop := ∃ k ∈ ks, k.Annotated s t

/-- Whether overrides lead from `s` to a symbol that is annotated with the tag. -/
def Traced (ks : List FileCheck) (s : Symbol) (t : Tag) : Prop :=
  ∃ q, Relation.TransGen (OverridesIn ks) s q ∧ AnnotatedIn ks q t

/-- Whether the checks show where a tag comes from that an annotation is said to stand behind. -/
def Backed (ks : List FileCheck) (s : Symbol) (e : SourcedTag) : Prop :=
  match e.origin with
  | .inherited => Traced ks s e.tag
  | .explicit | .typeLevel => AnnotatedIn ks s e.tag
  | _ => True

/-- Whether they do so for all published tags. -/
def BackedStore (ks : List FileCheck) (b : Build) : Prop :=
  ∀ s e, b.store.tags.get? s = some e → Backed ks s e

section

variable {ks ks' : List FileCheck} {s p : Symbol} {t : Tag} {e : SourcedTag}

theorem Traced.mono (h : Traced ks s t) (hsub : ks ⊆ ks') : Traced ks' s t := by
  obtain ⟨q, hchain, k, hk, hend⟩ := h
  exact ⟨q, Relation.TransGen.mono (fun _ _ ⟨k, hk, hstep⟩ => ⟨k, hsub hk, hstep⟩) s q hchain,
    k, hsub hk, hend⟩

theorem Backed.mono (h : Backed ks s e) (hsub : ks ⊆ ks') : Backed ks' s e := by
  obtain ⟨t, origin⟩ := e
  cases origin
  case inherited => exact Traced.mono h hsub
  case explicit | typeLevel => exact h.imp fun k hk => ⟨hsub hk.1, hk.2⟩
  all_goals trivial

theorem BackedStore.mono {b : Build} (h : BackedStore ks b) (hsub : ks ⊆ ks') :
    BackedStore ks' b := fun s e he => (h s e he).mono hsub

/-- A symbol that overrides one whose tag is backed can be traced to the same annotation. -/
theorem Backed.traced (h : Backed ks p e) (hdeclared : e.origin.isDeclared = true)
    (hs : OverridesIn ks s p) : Traced ks s e.tag := by
  obtain ⟨t, origin⟩ := e
  cases origin
  case inherited =>
    obtain ⟨q, hchain, hend⟩ := h
    exact ⟨q, .head hs hchain, hend⟩
  case explicit | typeLevel => exact ⟨p, .single hs, h⟩
  all_goals cases hdeclared

end

namespace FileCheck

variable {k : FileCheck} {ks : List FileCheck}

theorem find?_roster (s : Symbol) : k.resolver.roster.find? s = k.member? s :=
  SourceUnit.find?_roster k.checker.exclusions k.file s

theorem declared_eq (s : Symbol) :
    k.resolver.settleAll.1.get? s = (k.tags.get? s).filter (·.origin.isDeclared) :=
  k.file.declared_of_effective k.checker.policy k.outside k.checker.settings.adviseUnannotated s

/-- What is declared is reported. -/
theorem tags_of_declared {s : Symbol} {e : SourcedTag}
    (h : k.resolver.settleAll.1.get? s = some e) :
    k.tags.get? s = some e ∧ e.origin.isDeclared = true := by
  rw [declared_eq] at h
  exact Option.filter_eq_some_iff.1 h

/-- A tag that the search finds beyond the file can be traced, if the published tags are backed. -/
theorem traced_of_beyond (hk : k ∈ ks) (hstore : BackedStore ks k.before) {s p : Symbol}
    {d : Declaration} (hd : k.member? s = some d) (hp : p ∈ d.member.overrides)
    {qs : List Symbol} {σ : Search} (hfaces : k.resolver.Faces (p :: qs) σ)
    (hout : k.resolver.roster.contains p = false) {t : Tag}
    (ht : k.outside.tagFrom σ.path p = some t) : Traced ks s t := by
  have hasks : ∀ q, k.outside.Asks σ.path [p] q → k.resolver.Asks q := fun q hq =>
    ⟨p, qs, σ, hfaces, hout, hq⟩
  obtain ⟨p', hp', q, hchain, hend⟩ :=
    Outside.exists_source (o := k.outside) σ.path [p] (t := t) (by simpa using ht)
  obtain rfl := List.mem_singleton.1 hp'
  have hfirst : OverridesIn ks s p' := ⟨k, hk, Or.inl ⟨d, hd, hp⟩⟩
  have hsteps : Relation.ReflTransGen (OverridesIn ks) p' q :=
    Relation.ReflTransGen.mono (fun a b h => ⟨k, hk, Or.inr ⟨hasks a h.1, h.2⟩⟩) p' q hchain
  rcases hend with ⟨e, he, hdeclared, rfl⟩ | ⟨hq, htagged⟩
  · -- The last symbol is published: its own lineage takes over from there.
    rcases Relation.ReflTransGen.cases_tail hsteps with rfl | ⟨q', hinit, hlast⟩
    · exact (hstore _ e he).traced hdeclared hfirst
    · obtain ⟨a, hrest, hend⟩ := (hstore _ e he).traced hdeclared hlast
      exact ⟨a, .trans_right (.head hfirst hinit) hrest, hend⟩
  · exact ⟨q, .head' hfirst hsteps, k, hk, Or.inr ⟨hasks q hq, htagged⟩⟩

/-- Whatever the search finds is backed and passed on in order, if the published tags are backed. -/
theorem hereditary (hk : k ∈ ks) (hstore : BackedStore ks k.before) :
    k.resolver.Hereditary fun s e =>
      Backed ks s e ∧ (e.origin = .inherited → k.PassedOn s e.tag) := by
  intro d os e hfind htag hget hos
  have hd : k.member? d.member.symbol = some d := (find?_roster _).symm.trans hfind
  obtain ⟨hreport, -⟩ := tags_of_declared hget
  unfold Declaration.declaredTag at htag
  split at htag
  case h_1 w hw =>
    cases htag
    exact ⟨⟨k, hk, Or.inl ⟨d, hd, Or.inl ⟨⟨w, hw, rfl⟩, hreport⟩⟩⟩, by simp⟩
  case h_2 o os _ =>
    cases htag
    obtain ⟨hp, hfrom⟩ := hos o List.mem_cons_self
    split at hfrom
    case isTrue =>
      obtain ⟨e, he, hsame, hbacked, -⟩ := hfrom
      obtain ⟨hreported, hdeclared⟩ := tags_of_declared he
      have htraced := hbacked.traced hdeclared ⟨k, hk, Or.inl ⟨d, hd, hp⟩⟩
      exact ⟨hsame ▸ htraced, fun _ => ⟨d, hd, _, hp, Or.inl ⟨e, hreported, hsame, hdeclared⟩⟩⟩
    case isFalse hout =>
      obtain ⟨qs, σ, hfaces, hfound⟩ := hfrom
      have hnone : k.member? o.overridden = none := by
        rw [← find?_roster]
        simpa [Roster.contains] using hout
      exact ⟨traced_of_beyond hk hstore hd hp hfaces (by simpa using hout) hfound,
        fun _ => ⟨d, hd, _, hp, Or.inr ⟨hnone, Outside.offers_of_tagFrom hfound⟩⟩⟩
  case h_3 hw =>
    obtain ⟨t, ht, rfl⟩ := Option.map_eq_some_iff.1 htag
    exact ⟨⟨k, hk, Or.inl ⟨d, hd, Or.inr ⟨⟨hw, ht⟩, hreport⟩⟩⟩, by simp⟩

/-- So is every tag in the report that an annotation is said to stand behind. -/
theorem backed_of_tags (hk : k ∈ ks) (hstore : BackedStore ks k.before) {s : Symbol}
    {e : SourcedTag} (h : k.tags.get? s = some e) :
    Backed ks s e ∧ (e.origin = .inherited → k.PassedOn s e.tag) := by
  cases hdeclared : e.origin.isDeclared with
  | true =>
    refine Resolver.settled_induct (hereditary hk hstore) ?_
    rw [declared_eq, h, Option.filter_some, hdeclared]
    rfl
  | false =>
    obtain ⟨t, origin⟩ := e
    cases origin
    case context | enclosing | assumed => exact ⟨trivial, by simp⟩
    all_goals cases hdeclared

/-- What is published after a check was published before, or it stands in the report. -/
theorem tags_of_store {s : Symbol} {e : SourcedTag}
    (h : (k.checker.check k.file k.host k.before).build.store.tags.get? s = some e) :
    k.before.store.tags.get? s = some e ∨ k.tags.get? s = some e := by
  rw [Checker.check_store] at h
  exact (TagStore.cases_of_get?_publishAll h).symm.imp id fun hp =>
    (Checker.mem_publications_iff.1 hp).2

end FileCheck

/-! ### The checks of a build -/

namespace Command

/-- The checks of the build that is under way after a command, given those before it. -/
def checksAfter (b : Build) (ks : List FileCheck) : Command → List FileCheck
  | start _ => []
  | check c u host => ks ++ [⟨c, u, host, b⟩]
  | publish .. | finish _ => ks

/-- The checks of the build that is under way after commands, given those before them. -/
def currentChecks (b : Build) (ks : List FileCheck) : List Command → List FileCheck
  | [] => ks
  | c :: cs => currentChecks (c.perform b).build (c.checksAfter b ks) cs

/-- A command keeps the published tags backed, unless it publishes one by hand. -/
theorem backed_perform {b : Build} {ks : List FileCheck} {c : Command} (h : BackedStore ks b)
    (hc : ∀ s e, c ≠ publish s e) : BackedStore (c.checksAfter b ks) (c.perform b).build := by
  intro s e he
  cases c with
  | start c =>
    have hempty : ((start c).perform b).build.store = .empty := c.start_store b
    rw [hempty] at he
    cases he
  | check c u host =>
    have hold : BackedStore (ks ++ [⟨c, u, host, b⟩]) b := h.mono (List.subset_append_left ..)
    rcases FileCheck.tags_of_store (k := ⟨c, u, host, b⟩) he with he | he
    · exact hold s e he
    · exact (FileCheck.backed_of_tags (List.mem_append_right _ List.mem_cons_self) hold he).1
  | publish s e => exact absurd rfl (hc s e)
  | finish c => exact h s e he

/-- And so do commands one after another. -/
theorem backed_run {b : Build} {ks : List FileCheck} {cs : List Command} (h : BackedStore ks b)
    (hcs : ∀ s e, publish s e ∉ cs) : BackedStore (currentChecks b ks cs) (run b cs) := by
  induction cs generalizing b ks with
  | nil => exact h
  | cons c cs ih =>
    refine ih (backed_perform h fun s e hc => hcs s e (hc ▸ List.mem_cons_self)) fun s e hmem => ?_
    exact hcs s e (List.mem_cons_of_mem _ hmem)

/-- In a build that starts without published tags, and in which none are published by hand, every
inherited tag can be traced to an annotation: a published one by the checks so far, and one in a
report by these and the check that it is the report of. The latter was passed on to its member by
one that the member overrides, and an annotation stands behind it there. -/
theorem inherited_traced (b : Build) (hempty : b.store.tags = .empty) (cs : List Command)
    (hcs : ∀ s e, publish s e ∉ cs) :
    (∀ s t, (run b cs).store.tags.get? s = some ⟨t, .inherited⟩ →
      Traced (currentChecks b [] cs) s t) ∧
    ∀ (c : Checker) (u : SourceUnit) (host : HostTable), let k : FileCheck := ⟨c, u, host, run b cs⟩
      ∀ s t, k.tags.get? s = some ⟨t, .inherited⟩ →
        Traced (currentChecks b [] cs ++ [k]) s t ∧ k.PassedOn s t := by
  have hstart : BackedStore [] b := by
    rw [BackedStore, hempty]
    nofun
  have hbacked := backed_run hstart hcs
  refine ⟨fun s t h => hbacked s _ h, ?_⟩
  intro c u host k s t h
  have hstore : BackedStore (currentChecks b [] cs ++ [k]) k.before :=
    hbacked.mono (List.subset_append_left ..)
  obtain ⟨htraced, hpassed⟩ :=
    FileCheck.backed_of_tags (List.mem_append_right _ List.mem_cons_self) hstore h
  exact ⟨htraced, hpassed rfl⟩

/-- A timer that overrides a job of another file. -/
def timer : SourceUnit where
  path := "Timer.java"
  types := [{ name := "app.Timer", members := [
    { symbol := ⟨"app.Timer#run()"⟩, kind := .method, overrides := [⟨"app.Job#run()"⟩] }] }]

/-- The job inherits from the base by way of the library, once the base is published, and the timer
inherits from the job. Both tags go back to the annotation of the base. -/
theorem inherited_traced_timer :
    let cs : List Command := [.start Checker.plain,
      .check Checker.plain Checker.detour Checker.detourHost,
      .check Checker.plain Checker.detour Checker.detourHost]
    let k : FileCheck := ⟨Checker.plain, timer, .empty, run {} cs⟩
    (run {} cs).store.tags.get? ⟨"app.Job#run()"⟩ = some ⟨.worker, .inherited⟩ ∧
      Traced (currentChecks {} [] cs) ⟨"app.Job#run()"⟩ .worker ∧
      k.tags.get? ⟨"app.Timer#run()"⟩ = some ⟨.worker, .inherited⟩ ∧
      Traced (currentChecks {} [] cs ++ [k]) ⟨"app.Timer#run()"⟩ .worker ∧
      k.PassedOn ⟨"app.Timer#run()"⟩ .worker := by
  intro cs k
  obtain ⟨hstore, hreport⟩ := inherited_traced {} rfl cs (by simp [cs])
  have hjob : (run {} cs).store.tags.get? ⟨"app.Job#run()"⟩ = some ⟨.worker, .inherited⟩ := by
    decide
  have htimer : k.tags.get? ⟨"app.Timer#run()"⟩ = some ⟨.worker, .inherited⟩ := by decide
  exact ⟨hjob, hstore _ _ hjob, htimer, hreport _ _ _ _ _ htimer⟩

end Command

end ThreadAffinity
