import ThreadAffinity.Proofs.CallSites
import ThreadAffinity.Proofs.PartSearch
import ThreadAffinity.Proofs.PartWalk
import ThreadAffinity.Proofs.Recheck

/-!
Splitting a file.

The types of a file may be handed over in two files, one after the other, if the earlier ones do not
refer to members of the later ones. What the later ones take from the earlier ones then travels by
another way: in one file the search for declared tags and the check of the call sites look it up in
the file itself, in two files they find it in the build store, where the first file has published
it. Both ways come to the same (`Checker.check_split`). -/

namespace ThreadAffinity

/-! ### The tag of a target, in one place or in another -/

namespace CallRules

variable {c c' : CallRules}

theorem targetTag_own {target : Symbol} {t : SourcedTag} (h : c.own.get? target = some t) :
    (c.targetTag target).tag = t.tag := by
  rw [targetTag, h]

theorem targetTag_published {target : Symbol} {t : SourcedTag} (hown : c.own.get? target = none)
    (h : c.outside.store.get? target = some t) : (c.targetTag target).tag = t.tag := by
  rw [targetTag, hown, h]

theorem targetTag_sameBut {l : List Symbol} (h : c.outside.SameBut l c'.outside) {target : Symbol}
    (ht : target ∉ l) (hown : c'.own.get? target = c.own.get? target) :
    (c'.targetTag target).tag = (c.targetTag target).tag := by
  rw [targetTag, targetTag, hown, h.store target ht, h.host]
  cases c.own.get? target with
  | some t => rfl
  | none =>
    cases c.outside.store.get? target with
    | some t => rfl
    | none =>
      cases hhost : c.outside.host.get? target with
      | none => rfl
      | some e =>
        obtain ⟨_ | tag, ps⟩ := e
        · dsimp only
          rw [Outside.tagOfFirst_fst, Outside.tagOfFirst_fst,
            findSome?_congr fun p hp => h.tagFrom (h.apart target _ hhost p hp) _]
        · rfl

theorem siteFindings_congr {sites : List CallSite} (hpolicy : c'.policy = c.policy)
    (hx : c'.outside.exclusions = c.outside.exclusions)
    (h : ∀ site ∈ sites, ∀ target, site.target = some target →
      (c'.targetTag target).tag = (c.targetTag target).tag) :
    sites.filterMap c'.siteFinding? = sites.filterMap c.siteFinding? := by
  refine List.filterMap_congr fun site hsite => ?_
  unfold siteFinding? finding?
  cases ht : site.target with
  | none => rfl
  | some target => rw [Option.bind_some, Option.bind_some, hx, hpolicy, h site hsite target ht]

end CallRules

/-! ### Files that may be split -/

/-- Whether a file names a symbol: one of its members overrides it, or one of its uses has it for a
target. -/
def SourceUnit.Names (x : Exclusions) (u : SourceUnit) (s : Symbol) : Prop :=
  (∃ d ∈ u.occurrences x, s ∈ d.member.overrides) ∨ ∃ n ∈ u.uses, n.target = some s

instance (x : Exclusions) (u : SourceUnit) (s : Symbol) : Decidable (u.Names x s) :=
  inferInstanceAs (Decidable (_ ∨ _))

/-- What is called is named. -/
theorem SourceUnit.names_of_site {x : Exclusions} {u : SourceUnit} {declared : TagMap} {advise : Bool}
    {site : CallSite} (h : site ∈ (u.effectiveTags x declared advise).sites) {target : Symbol}
    (ht : site.target = some target) : u.Names x target := by
  change site ∈ (u.visits x declared).filterMap Visit.site? at h
  rw [sites_eq] at h
  obtain ⟨n, hn, rfl⟩ := List.mem_map.1 h
  exact Or.inr ⟨n, (List.mem_filter.1 hn).1, ht⟩

/-- Two parts of a file of which the second may stand in a file of its own, after the first. -/
structure Splittable (x : Exclusions) (host : HostTable) (u₁ u₂ : SourceUnit) : Prop where
  /-- No two members have one symbol. -/
  distinct : (u₁.symbols x ++ u₂.symbols x).Nodup
  /-- The members of a type are its own. -/
  owned : ∀ t ∈ u₁.types, ∀ m ∈ t.members, m.symbol.owner = t.name
  /-- The first part does not refer to the second. -/
  forward : ∀ s ∈ u₂.symbols x, ¬ u₁.Names x s
  /-- The second part refers to those members of the first only to which another file may refer. -/
  exported : ∀ s ∈ u₁.symbols x, u₂.Names x s →
    ∃ t ∈ u₁.types, x.covers t.name = false ∧
      ∃ m ∈ t.members, m.symbol = s ∧ m.visibility.isExported = true
  /-- The host does not declare the members. -/
  undeclared : ∀ s ∈ u₁.symbols x ++ u₂.symbols x, host.get? s = none
  /-- The host's declarations do not override the members. -/
  apart : ∀ s e, host.get? s = some e → ∀ p ∈ e.overrides, p ∉ u₁.symbols x ++ u₂.symbols x

namespace Splittable

variable {x : Exclusions} {host : HostTable} {u₁ u₂ : SourceUnit}

theorem nodup_first (h : Splittable x host u₁ u₂) : (u₁.symbols x).Nodup :=
  (List.nodup_append.1 h.distinct).1

theorem nodup_second (h : Splittable x host u₁ u₂) : (u₂.symbols x).Nodup :=
  (List.nodup_append.1 h.distinct).2.1

theorem apart_first (h : Splittable x host u₁ u₂) (s : Symbol) (e : HostDecl)
    (he : host.get? s = some e) (p : Symbol) (hp : p ∈ e.overrides) : p ∉ u₁.symbols x :=
  fun hmem => h.apart s e he p hp (List.mem_append_left _ hmem)

theorem apart_second (h : Splittable x host u₁ u₂) (s : Symbol) (e : HostDecl)
    (he : host.get? s = some e) (p : Symbol) (hp : p ∈ e.overrides) : p ∉ u₂.symbols x :=
  fun hmem => h.apart s e he p hp (List.mem_append_right _ hmem)

theorem notMem_second (h : Splittable x host u₁ u₂) {s : Symbol} (hs : s ∈ u₁.symbols x) :
    s ∉ u₂.symbols x := List.disjoint_of_nodup_append h.distinct hs

theorem notMem_first (h : Splittable x host u₁ u₂) {s : Symbol} (hs : s ∈ u₂.symbols x) :
    s ∉ u₁.symbols x := fun hs' => h.notMem_second hs' hs

end Splittable

namespace Checker

variable {c : Checker} {host : HostTable} {b : Build} {u u₁ u₂ : SourceUnit}

/-! ### What a file publishes -/

/-- Checking a file changes its surroundings in nothing but its own members. -/
theorem sameBut_check (hn : (u.symbols c.exclusions).Nodup)
    (hapart : ∀ s e, host.get? s = some e → ∀ p ∈ e.overrides, p ∉ u.symbols c.exclusions) :
    Outside.SameBut (u.symbols c.exclusions) (c.outside b.store host)
      (c.outside (c.check u host b).build.store host) where
  exclusions := rfl
  host := rfl
  store _ hs := store_get?_of_not_exported fun hexp => hs (SourceUnit.mem_symbols_of_exported hn hexp)
  apart := hapart

/-- A member of the first file that the second one names is published. -/
theorem store_get?_of_named (h : Splittable c.exclusions host u₁ u₂)
    (hopen : b.store.isSealed = false) {s : Symbol} (hs : s ∈ u₁.symbols c.exclusions)
    (hnamed : u₂.Names c.exclusions s) :
    (c.check u₁ host b).build.store.tags.get? s = (c.effectiveTags u₁ host b).tags.get? s := by
  obtain ⟨type, htype, hcov, m, hm, rfl, hexp⟩ := h.exported s hs hnamed
  have hexported : m.symbol ∈ (c.effectiveTags u₁ host b).exported :=
    SourceUnit.mem_exported h.nodup_first htype hcov hm hexp
  obtain ⟨t, ht⟩ : ∃ t, (c.effectiveTags u₁ host b).tags.get? m.symbol = some t :=
    Option.isSome_iff_exists.1 (SourceUnit.isSome_effectiveTags_iff.2 hs)
  rw [store_get?_of_exported hopen hexported ht, ht]

/-- The search of the second file finds such a member with the declared tag that it has. -/
theorem look_of_named (h : Splittable c.exclusions host u₁ u₂) (hopen : b.store.isSealed = false)
    {s : Symbol} (hs : s ∈ u₁.symbols c.exclusions) (hnamed : u₂.Names c.exclusions s) :
    (c.outside (c.check u₁ host b).build.store host).look s =
      .found (((c.declaredTags u₁ host b).tags.get? s).map (·.tag)) := by
  have hcov : c.exclusions.covers s.owner = false := by
    obtain ⟨type, htype, hcov, m, hm, rfl, -⟩ := h.exported s hs hnamed
    rw [h.owned type htype m hm, hcov]
  have hhost : host.get? s = none := h.undeclared s (List.mem_append_left _ hs)
  have hdeclared : (c.declaredTags u₁ host b).tags.get? s =
      ((c.effectiveTags u₁ host b).tags.get? s).filter (·.origin.isDeclared) :=
    u₁.declared_of_effective c.policy (c.outside b.store host) c.settings.adviseUnannotated s
  rw [Outside.look_of_undeclared hcov hhost, Outside.publishedTag?_eq, hdeclared,
    ← store_get?_of_named h hopen hs hnamed]
  rfl

/-! ### Declared tags -/

section Parts

variable (htypes : u.types = u₁.types ++ u₂.types) (h : Splittable c.exclusions host u₁ u₂)

include htypes h

theorem first_partOf (o : Outside) :
    Resolver.PartOf ⟨c.policy, u₁.roster c.exclusions, o⟩ ⟨c.policy, u.roster c.exclusions, o⟩
      fun _ => none where
  policy := rfl
  find? s d hd := by
    refine ⟨?_, rfl⟩
    rw [SourceUnit.find?_roster] at hd ⊢
    rw [SourceUnit.member?_parts _ htypes, hd, Option.some_or]
  earlier d hd p hp hout hin := by
    rw [← Bool.not_eq_true, SourceUnit.contains_roster_iff] at hout
    rw [SourceUnit.contains_roster_iff, SourceUnit.symbols_parts _ htypes, List.mem_append] at hin
    have hmem := SourceUnit.mem_occurrences_of_roster _ _ hd
    exact absurd (Or.inl ⟨d, hmem, hp⟩) (h.forward p (hin.resolve_left hout))
  beyond _ _ _ _ _ _ _ := rfl

theorem second_partOf (hopen : b.store.isSealed = false) :
    Resolver.PartOf
      ⟨c.policy, u₂.roster c.exclusions, c.outside (c.check u₁ host b).build.store host⟩
      ⟨c.policy, u.roster c.exclusions, c.outside b.store host⟩
      (Resolver.settleAll ⟨c.policy, u₁.roster c.exclusions, c.outside b.store host⟩).2.settled? where
  policy := rfl
  find? s d hd := by
    have hs : s ∉ u₁.symbols c.exclusions := h.notMem_first
      ((SourceUnit.contains_roster_iff _ _).1 (Option.isSome_iff_exists.2 ⟨d, hd⟩))
    have hnone : u₁.member? c.exclusions s = none := by
      rw [← SourceUnit.find?_roster]
      simpa [← SourceUnit.contains_roster_iff, Roster.contains] using hs
    constructor
    · rw [SourceUnit.find?_roster] at hd ⊢
      rw [SourceUnit.member?_parts _ htypes, hnone, hd, Option.none_or]
    · rw [Resolver.settleAll_settled?, if_neg]
      exact fun hmem => hs ((SourceUnit.mem_roster_symbols_iff _ _).1 hmem)
  earlier d hd p hp hout hin := by
    rw [← Bool.not_eq_true, SourceUnit.contains_roster_iff] at hout
    rw [SourceUnit.contains_roster_iff, SourceUnit.symbols_parts _ htypes, List.mem_append] at hin
    have hmem := SourceUnit.mem_occurrences_of_roster _ _ hd
    have hfirst := hin.resolve_right hout
    refine ⟨(c.declaredTags u₁ host b).tags.get? p, ?_, fun path => ?_⟩
    · rw [Resolver.settleAll_settled?, if_pos ((SourceUnit.mem_roster_symbols_iff _ _).2 hfirst)]
      rfl
    · exact Outside.tagFrom_found (look_of_named h hopen hfirst (Or.inl ⟨d, hmem, hp⟩))
  beyond d hd p hp hout hin path := by
    rw [← Bool.not_eq_true, SourceUnit.contains_roster_iff, SourceUnit.symbols_parts _ htypes,
      List.mem_append, not_or] at hin
    exact (sameBut_check h.nodup_first h.apart_first).tagFrom hin.1 path

/-- The declared tags of the file are those of the two parts. -/
theorem declaredTags_parts (hopen : b.store.isSealed = false) :
    (∀ s, (c.declaredTags u host b).tags.get? s =
      ((c.declaredTags u₁ host b).tags.get? s).or
        ((c.declaredTags u₂ host (c.check u₁ host b).build).tags.get? s)) ∧
      (c.declaredTags u host b).findings = (c.declaredTags u₁ host b).findings ++
        (c.declaredTags u₂ host (c.check u₁ host b).build).findings :=
  Resolver.settleAll_parts (SourceUnit.symbols_roster_parts _ htypes h.distinct)
    (first_partOf htypes h _) (second_partOf htypes h hopen)

/-! ### Effective tags and publications -/

/-- And so are its effective tags, its exports, its lambdas, its call sites and its advisories. -/
theorem effectiveTags_parts (hopen : b.store.isSealed = false) :
    (c.effectiveTags u₁ host b).Joined (c.effectiveTags u₂ host (c.check u₁ host b).build)
      (c.effectiveTags u host b) := by
  have hdeclared := (declaredTags_parts htypes h hopen).1
  refine SourceUnit.effectiveTags_joined _ htypes h.distinct (fun s hs => ?_) fun s hs => ?_
  · have hnone : (c.declaredTags u₂ host (c.check u₁ host b).build).tags.get? s = none :=
      Resolver.settleAll_get?_of_notMem fun hmem =>
        h.notMem_second hs ((SourceUnit.mem_roster_symbols_iff _ _).1 hmem)
    rw [hdeclared, hnone, Option.or_none]
  · have hnone : (c.declaredTags u₁ host b).tags.get? s = none :=
      Resolver.settleAll_get?_of_notMem fun hmem =>
        h.notMem_first hs ((SourceUnit.mem_roster_symbols_iff _ _).1 hmem)
    rw [hdeclared, hnone, Option.none_or]

/-- The two files publish in turn what the one file publishes. -/
theorem store_parts (hopen : b.store.isSealed = false) :
    (c.check u host b).build.store =
      (c.check u₂ host (c.check u₁ host b).build).build.store := by
  have hjoined := effectiveTags_parts htypes h hopen
  have hpublications : publications (c.effectiveTags u host b) =
      publications (c.effectiveTags u₁ host b) ++
        publications (c.effectiveTags u₂ host (c.check u₁ host b).build) := by
    unfold publications
    rw [hjoined.exported, List.filterMap_append]
    congr 1
    · refine List.filterMap_congr fun s hs => ?_
      obtain ⟨t, ht⟩ := Option.isSome_iff_exists.1 (SourceUnit.isSome_effectiveTags_iff.2
        (SourceUnit.mem_symbols_of_exported h.nodup_first hs))
      have ht' : (c.effectiveTags u₁ host b).tags.get? s = some t := ht
      rw [hjoined.tags, ht', Option.some_or]
    · refine List.filterMap_congr fun s hs => ?_
      have hnone : (c.effectiveTags u₁ host b).tags.get? s = none :=
        SourceUnit.effectiveTags_get?_of_notMem
          (h.notMem_first (SourceUnit.mem_symbols_of_exported h.nodup_second hs))
      rw [hjoined.tags, hnone, Option.none_or]
  rw [check_store, hpublications, TagStore.publishAll_append]
  rfl

/-! ### Call sites -/

theorem targetTag_first (hopen : b.store.isSealed = false) {target : Symbol}
    (hnot : target ∉ u₂.symbols c.exclusions) :
    ((c.callRules u host b).targetTag target).tag = ((c.callRules u₁ host b).targetTag target).tag := by
  refine CallRules.targetTag_sameBut ?_ hnot ?_
  · rw [callRules_outside, callRules_outside, store_parts htypes h hopen]
    exact sameBut_check h.nodup_second h.apart_second
  · have hnone : (c.effectiveTags u₂ host (c.check u₁ host b).build).tags.get? target = none :=
      SourceUnit.effectiveTags_get?_of_notMem hnot
    rw [callRules_own, callRules_own, (effectiveTags_parts htypes h hopen).tags, hnone, Option.or_none]

/-- In one file the second part has the targets in the first at hand, in two files they are in the
store. -/
theorem targetTag_second (hopen : b.store.isSealed = false) {target : Symbol}
    (hnamed : u₂.Names c.exclusions target) :
    ((c.callRules u host b).targetTag target).tag =
      ((c.callRules u₂ host (c.check u₁ host b).build).targetTag target).tag := by
  have hown := (effectiveTags_parts htypes h hopen).tags target
  by_cases hfirst : target ∈ u₁.symbols c.exclusions
  · obtain ⟨t, ht⟩ : ∃ t, (c.effectiveTags u₁ host b).tags.get? target = some t :=
      Option.isSome_iff_exists.1 (SourceUnit.isSome_effectiveTags_iff.2 hfirst)
    have hnot := h.notMem_second hfirst
    have hnone : (c.effectiveTags u₂ host (c.check u₁ host b).build).tags.get? target = none :=
      SourceUnit.effectiveTags_get?_of_notMem hnot
    have hstore : (c.outside (c.check u₂ host (c.check u₁ host b).build).build.store host).store.get?
        target = some t := by
      rw [(sameBut_check h.nodup_second h.apart_second).store target hnot, ← ht]
      exact store_get?_of_named h hopen hfirst hnamed
    rw [ht, Option.some_or] at hown
    rw [CallRules.targetTag_own (callRules_own .. ▸ hown),
      CallRules.targetTag_published (callRules_own .. ▸ hnone) (callRules_outside .. ▸ hstore)]
  · have hnone : (c.effectiveTags u₁ host b).tags.get? target = none :=
      SourceUnit.effectiveTags_get?_of_notMem hfirst
    refine CallRules.targetTag_sameBut ?_ List.not_mem_nil ?_
    · rw [callRules_outside, callRules_outside, store_parts htypes h hopen]
      exact .refl _
    · rw [callRules_own, callRules_own, hown, hnone, Option.none_or]

theorem callFindings_parts (hopen : b.store.isSealed = false) :
    (c.callReport u host b).findings = (c.callReport u₁ host b).findings ++
      (c.callReport u₂ host (c.check u₁ host b).build).findings := by
  unfold callReport
  rw [CallRules.check_findings, CallRules.check_findings, CallRules.check_findings,
    (effectiveTags_parts htypes h hopen).sites, List.filterMap_append]
  congr 1
  · refine CallRules.siteFindings_congr ((callRules_policy ..).trans (callRules_policy ..).symm)
      ((callRules_exclusions ..).trans (callRules_exclusions ..).symm)
      fun site hsite target htarget => ?_
    exact targetTag_first htypes h hopen fun hmem =>
      h.forward target hmem (SourceUnit.names_of_site hsite htarget)
  · refine CallRules.siteFindings_congr ((callRules_policy ..).trans (callRules_policy ..).symm)
      ((callRules_exclusions ..).trans (callRules_exclusions ..).symm)
      fun site hsite target htarget => ?_
    exact targetTag_second htypes h hopen (SourceUnit.names_of_site hsite htarget)

end Parts

/-- Checking a file is checking its first types in a file of their own and then the others: the same
findings, the effective tags of both, which share no member, the same lambdas in the same order, and
the same store in the end. -/
theorem check_split (c : Checker) (host : HostTable) (b : Build) (u u₁ u₂ : SourceUnit)
    (htypes : u.types = u₁.types ++ u₂.types) (h : Splittable c.exclusions host u₁ u₂)
    (hopen : b.store.isSealed = false) :
    let whole := c.check u host b
    let first := c.check u₁ host b
    let second := c.check u₂ host first.build
    whole.result.findings.Perm (first.result.findings ++ second.result.findings) ∧
      (∀ s, whole.result.tags.get? s =
        (first.result.tags.get? s).or (second.result.tags.get? s)) ∧
      (∀ s, first.result.tags.get? s = none ∨ second.result.tags.get? s = none) ∧
      whole.result.lambdas = first.result.lambdas ++ second.result.lambdas ∧
      whole.build.store = second.build.store := by
  intro whole first second
  have hjoined := effectiveTags_parts htypes h hopen
  refine ⟨?_, hjoined.tags, fun s => ?_, hjoined.lambdas, store_parts htypes h hopen⟩
  · refine (findings_perm c u host b).trans (.trans ?_
      ((findings_perm c u₁ host b).append
        (findings_perm c u₂ host (c.check u₁ host b).build)).symm)
    rw [(declaredTags_parts htypes h hopen).2, hjoined.findings, callFindings_parts htypes h hopen,
      List.perm_iff_count]
    intro f
    simp only [List.count_append]
    omega
  · change (c.effectiveTags u₁ host b).tags.get? s = none ∨
      (c.effectiveTags u₂ host (c.check u₁ host b).build).tags.get? s = none
    by_cases hs : s ∈ u₁.symbols c.exclusions
    · exact Or.inr (SourceUnit.effectiveTags_get?_of_notMem (h.notMem_second hs))
    · exact Or.inl (SourceUnit.effectiveTags_get?_of_notMem hs)

/-- A job for the background and a helper that only it may use. -/
def jobFile : SourceUnit where
  path := "Job.java"
  types := [{ name := "app.Job", members := [
    { symbol := ⟨"app.Job#run()"⟩, kind := .method, overrides := [⟨"lib.Task#run()"⟩],
      body := [.use .call (some ⟨"app.Job#log()"⟩) ⟨10, 15⟩] },
    { symbol := ⟨"app.Job#log()"⟩, kind := .method, visibility := .priv }] }]

/-- A window that overrides the job and calls it. -/
def windowFile : SourceUnit where
  path := "Window.java"
  types := [{ name := "app.Window", tag := some { tag := .swing }, members := [
    { symbol := ⟨"app.Window#run()"⟩, kind := .method, tag := some { tag := .swing },
      overrides := [⟨"app.Job#run()"⟩], span := ⟨0, 40⟩,
      body := [.lambda none [.use .call (some ⟨"app.Job#run()"⟩) ⟨20, 25⟩] ⟨15, 30⟩] }] }]

/-- A library whose tasks run in the background. -/
def taskHost : HostTable := SymbolMap.ofList [(⟨"lib.Task#run()"⟩, { tag := some .worker })]

theorem splittable_job_window : Splittable plain.exclusions taskHost jobFile windowFile where
  distinct := by decide
  owned := by decide
  forward := by decide
  exported := by decide
  undeclared := by decide
  apart s e he := by
    have hall : ∀ e ∈ taskHost.entries, ∀ p ∈ e.2.overrides,
        p ∉ jobFile.symbols plain.exclusions ++ windowFile.symbols plain.exclusions := by decide
    exact hall (s, e) (SymbolMap.mem_entries_iff.2 he)

/-- The window breaks the obligation to the job and calls it illegally, in one file or in two. -/
theorem check_split_job_window :
    let whole := plain.check ⟨"Office.java", "", jobFile.types ++ windowFile.types⟩ taskHost {}
    let first := plain.check jobFile taskHost {}
    let second := plain.check windowFile taskHost first.build
    whole.result.findings.Perm (first.result.findings ++ second.result.findings) ∧
      first.result.findings.length = 1 ∧ second.result.findings.length = 2 ∧
      whole.build.store = second.build.store := by
  intro whole first second
  obtain ⟨hfindings, -, -, -, hstore⟩ := check_split plain taskHost {}
    ⟨"Office.java", "", jobFile.types ++ windowFile.types⟩ jobFile windowFile rfl
    splittable_job_window rfl
  exact ⟨hfindings, by decide, by decide, hstore⟩

end Checker

end ThreadAffinity
