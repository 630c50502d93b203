import ThreadAffinity.Checker
import ThreadAffinity.Proofs.FileSearch
import ThreadAffinity.Proofs.ReportOrder

/-!
What stands in the report of a file.

Three stages contribute findings, and each contributes findings of one kind only: the search for
declared tags broken obligations, the walk advisories, and the check of the call sites illegal calls.
Sorting loses none of them and adds none, so the report can be taken apart by kind again. -/

namespace ThreadAffinity

namespace Finding

/-- Whether the finding is of a call that the policy forbids. -/
def isIllegalCall (f : Finding) : Bool := f.problem.code == "IllegalCrossThreadCall"

/-- Whether the finding is of a broken obligation. -/
def isConflict (f : Finding) : Bool := f.problem.code == "ConflictingOverride"

end Finding

namespace Resolver

/-- The findings of a resolution are those of its verdicts. -/
theorem settleAll_findings (r : Resolver) : ∃ vs : List Verdict,
    r.settleAll.2.findings = vs.flatMap fun v => v.declaration.conflicts r.policy v.obligations := by
  obtain ⟨vs, hvs⟩ := r.settleAll_verdicts.ledger
  exact ⟨vs, hvs.findings.trans (List.nil_append _)⟩

end Resolver

theorem Declaration.isConflict_of_mem_conflicts {d : Declaration} {policy : CallPolicy}
    {os : List Obligation} {f : Finding} (h : f ∈ d.conflicts policy os) : f.isConflict = true := by
  unfold conflicts at h
  split at h
  · cases h
  · split at h
    · cases h
    · obtain ⟨o, -, rfl⟩ := List.mem_map.1 h
      rfl

/-- Declared tags bring nothing but broken obligations. -/
theorem SourceUnit.isConflict_of_mem_declaredTags {u : SourceUnit} {policy : CallPolicy}
    {o : Outside} {f : Finding} (h : f ∈ (u.declaredTags policy o).findings) :
    f.isConflict = true := by
  obtain ⟨vs, hvs⟩ := Resolver.settleAll_findings ⟨policy, u.roster o.exclusions, o⟩
  change f ∈ (Resolver.settleAll ⟨policy, u.roster o.exclusions, o⟩).2.findings at h
  rw [hvs] at h
  obtain ⟨v, -, hv⟩ := List.mem_flatMap.1 h
  exact Declaration.isConflict_of_mem_conflicts hv

/-- The walk brings nothing but advisories. -/
theorem SourceUnit.severity_of_mem_effectiveTags {u : SourceUnit} {x : Exclusions}
    {declared : TagMap} {advise : Bool} {f : Finding}
    (h : f ∈ (u.effectiveTags x declared advise).findings) : f.severity = .advisory := by
  unfold effectiveTags at h
  dsimp only at h
  split at h
  · obtain ⟨v, -, hv⟩ := List.mem_filterMap.1 h
    cases v with
    | topLevel m tag =>
      simp only [Visit.advisory?] at hv
      split at hv
      · cases hv
      · cases hv
        rfl
    | _ => cases hv
  · cases h

/-! ### Call sites -/

namespace CallRules

/-- The finding of a site, if it is not passed over and the call is illegal. -/
def siteFinding? (c : CallRules) (site : CallSite) : Option Finding :=
  site.target.bind fun target =>
    if c.outside.exclusions.covers target.owner then none
    else c.finding? site target (c.targetTag target).tag

theorem checkSite_findings (c : CallRules) (r : CallReport) (site : CallSite) :
    (c.checkSite r site).findings = r.findings ++ (c.siteFinding? site).toList := by
  unfold checkSite siteFinding?
  cases site.target with
  | none => simp
  | some target =>
    simp only [Option.bind_some]
    split <;> simp

/-- Each site is checked on its own. -/
theorem check_findings (c : CallRules) (tally : Tally) (sites : List CallSite) :
    (c.check tally sites).findings = sites.filterMap c.siteFinding? := by
  have hall : ∀ (sites : List CallSite) (r : CallReport),
      (sites.foldl c.checkSite r).findings = r.findings ++ sites.filterMap c.siteFinding? := by
    intro sites
    induction sites with
    | nil => intro r; simp
    | cons site sites ih =>
      intro r
      rw [List.foldl_cons, ih, checkSite_findings, List.append_assoc]
      cases h : c.siteFinding? site <;> simp [h]
  exact (hall sites { tally }).trans (List.nil_append _)

theorem isIllegalCall_of_siteFinding? {c : CallRules} {site : CallSite} {f : Finding}
    (h : c.siteFinding? site = some f) : f.isIllegalCall = true := by
  obtain ⟨target, -, h⟩ := Option.bind_eq_some_iff.1 h
  split at h
  · cases h
  · unfold finding? at h
    split at h
    · cases h
    · cases h
      rfl

end CallRules

namespace Checker

/-- The rules that a file's call sites are checked by: its own effective tags, and what lies outside
once its publications are out. -/
def callRules (c : Checker) (u : SourceUnit) (host : HostTable) (b : Build) : CallRules :=
  ⟨c.policy, (c.check u host b).result.tags, c.outside (c.check u host b).build.store host⟩

theorem callRules_policy (c : Checker) (u : SourceUnit) (host : HostTable) (b : Build) :
    (c.callRules u host b).policy = c.policy := rfl

theorem callRules_outside (c : Checker) (u : SourceUnit) (host : HostTable) (b : Build) :
    (c.callRules u host b).outside = c.outside (c.check u host b).build.store host := rfl

theorem callRules_exclusions (c : Checker) (u : SourceUnit) (host : HostTable) (b : Build) :
    (c.callRules u host b).outside.exclusions = c.exclusions := rfl

/-- The declared tags that a file is checked with. -/
def declaredTags (c : Checker) (u : SourceUnit) (host : HostTable) (b : Build) : DeclaredTags :=
  u.declaredTags c.policy (c.outside b.store host)

/-- The effective tags that a file is checked with. -/
def effectiveTags (c : Checker) (u : SourceUnit) (host : HostTable) (b : Build) : EffectiveTags :=
  u.effectiveTags c.exclusions (c.declaredTags u host b).tags c.settings.adviseUnannotated

theorem callRules_own (c : Checker) (u : SourceUnit) (host : HostTable) (b : Build) :
    (c.callRules u host b).own = (c.effectiveTags u host b).tags := rfl

/-- What becomes of the call sites of a file. -/
def callReport (c : Checker) (u : SourceUnit) (host : HostTable) (b : Build) : CallReport :=
  (c.callRules u host b).check {} (c.effectiveTags u host b).sites

/-- A report is the three stages' findings in order, next to what the walk and the check of the call
sites found out. -/
theorem check_result (c : Checker) (u : SourceUnit) (host : HostTable) (b : Build) :
    (c.check u host b).result =
      ⟨Finding.sort ((c.declaredTags u host b).findings ++ (c.effectiveTags u host b).findings ++
        (c.callReport u host b).findings), (c.effectiveTags u host b).tags,
        (c.effectiveTags u host b).lambdas, (c.callReport u host b).tally⟩ := rfl

/-- What a check leaves behind: the publications of the file in the store, and its effective tags in
the listing if one is written. -/
theorem check_build (c : Checker) (u : SourceUnit) (host : HostTable) (b : Build) :
    (c.check u host b).build =
      ⟨(b.store.publishAll (publications (c.effectiveTags u host b))).1,
        if c.lists then b.listing.append (c.effectiveTags u host b).tags else b.listing⟩ := rfl

/-- The findings of a report are those of the three stages. -/
theorem findings_perm (c : Checker) (u : SourceUnit) (host : HostTable) (b : Build) :
    (c.check u host b).result.findings.Perm ((c.declaredTags u host b).findings ++
      (c.effectiveTags u host b).findings ++ (c.callReport u host b).findings) := by
  rw [check_result]
  exact Finding.sort_perm _

theorem isConflict_of_mem_declaredTags {c : Checker} {u : SourceUnit} {host : HostTable} {b : Build}
    {f : Finding} (h : f ∈ (c.declaredTags u host b).findings) :
    f.isConflict = true ∧ f.isIllegalCall = false := by
  have hconflict := SourceUnit.isConflict_of_mem_declaredTags h
  refine ⟨hconflict, ?_⟩
  simp only [Finding.isConflict, beq_iff_eq] at hconflict
  simp [Finding.isIllegalCall, hconflict]

theorem advisory_of_mem_effectiveTags {c : Checker} {u : SourceUnit} {host : HostTable} {b : Build}
    {f : Finding} (h : f ∈ (c.effectiveTags u host b).findings) :
    f.isConflict = false ∧ f.isIllegalCall = false := by
  have hsev := SourceUnit.severity_of_mem_effectiveTags h
  rcases f with ⟨_ | _ | _, span⟩
  · cases hsev
  · cases hsev
  · exact ⟨rfl, rfl⟩

theorem isIllegalCall_of_mem_callReport {c : Checker} {u : SourceUnit} {host : HostTable}
    {b : Build} {f : Finding} (h : f ∈ (c.callReport u host b).findings) :
    f.isConflict = false ∧ f.isIllegalCall = true := by
  rw [callReport, CallRules.check_findings] at h
  obtain ⟨site, -, hsite⟩ := List.mem_filterMap.1 h
  have hcall := CallRules.isIllegalCall_of_siteFinding? hsite
  refine ⟨?_, hcall⟩
  simp only [Finding.isIllegalCall, beq_iff_eq] at hcall
  simp [Finding.isConflict, hcall]

/-- Picking findings from a report comes to picking them from each stage. -/
theorem filter_findings (c : Checker) (u : SourceUnit) (host : HostTable) (b : Build)
    (p : Finding → Bool) :
    (c.check u host b).result.findings.filter p =
      Finding.sort ((c.declaredTags u host b).findings.filter p ++
        (c.effectiveTags u host b).findings.filter p ++
        (c.callReport u host b).findings.filter p) := by
  rw [check_result, Finding.filter_sort, List.filter_append, List.filter_append]

/-- The search for declared tags is the only source of broken obligations. -/
theorem conflicts_eq (c : Checker) (u : SourceUnit) (host : HostTable) (b : Build) :
    (c.check u host b).result.findings.filter Finding.isConflict =
      Finding.sort (c.declaredTags u host b).findings := by
  rw [filter_findings, List.filter_eq_self.2 fun f hf => (isConflict_of_mem_declaredTags hf).1,
    List.filter_eq_nil_iff.2 fun f hf => by simp [(advisory_of_mem_effectiveTags hf).1],
    List.filter_eq_nil_iff.2 fun f hf => by simp [(isIllegalCall_of_mem_callReport hf).1],
    List.append_nil, List.append_nil]

/-- The call sites of a file are the only source of illegal calls. -/
theorem illegalCalls_eq (c : Checker) (u : SourceUnit) (host : HostTable) (b : Build) :
    (c.check u host b).result.findings.filter Finding.isIllegalCall =
      Finding.sort
        ((c.effectiveTags u host b).sites.filterMap (c.callRules u host b).siteFinding?) := by
  rw [filter_findings,
    List.filter_eq_nil_iff.2 fun f hf => by simp [(isConflict_of_mem_declaredTags hf).2],
    List.filter_eq_nil_iff.2 fun f hf => by simp [(advisory_of_mem_effectiveTags hf).2],
    List.filter_eq_self.2 fun f hf => (isIllegalCall_of_mem_callReport hf).2,
    List.nil_append, List.nil_append, callReport, CallRules.check_findings]

/-- All other findings come from the search for declared tags and from the walk. -/
theorem otherFindings_eq (c : Checker) (u : SourceUnit) (host : HostTable) (b : Build) :
    ((c.check u host b).result.findings.filter fun f => !f.isIllegalCall) =
      Finding.sort ((c.declaredTags u host b).findings ++ (c.effectiveTags u host b).findings) := by
  rw [filter_findings,
    List.filter_eq_self.2 fun f hf => by simp [(isConflict_of_mem_declaredTags hf).2],
    List.filter_eq_self.2 fun f hf => by simp [(advisory_of_mem_effectiveTags hf).2],
    List.filter_eq_nil_iff.2 fun f hf => by simp [(isIllegalCall_of_mem_callReport hf).2],
    List.append_nil]

end Checker

end ThreadAffinity
