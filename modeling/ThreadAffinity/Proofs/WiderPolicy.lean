import ThreadAffinity.Proofs.Sessions

/-!
A wider policy only takes findings away.

The call policy decides which calls and which overrides are reported, and nothing else: no tag that
is resolved, inferred or published depends on it. So a search for declared tags under a wider policy
takes the same course, and its findings are those of the first search that the wider policy still
forbids (`Resolver.settle_under`). The same goes for the check of the call sites, for the check of a
file, and step by step for a whole session (`Checker.session_under_wider_policy`). -/

namespace ThreadAffinity

/-- Whether the second policy permits at least what the first does. -/
def CallPolicy.Widens (p' p : CallPolicy) : Prop :=
  ∀ a b, p.permits a b = true → p'.permits a b = true

/-- Whether the finding is one under the policy as well: the policy does not permit its two tags.
Advisories are no matter of policy. -/
def Finding.standsUnder (p : CallPolicy) (f : Finding) : Bool :=
  match f.problem with
  | .illegalCall _ _ callerTag calleeTag _ => !p.permits callerTag calleeTag
  | .conflictingOverride _ _ declared inherited => !p.permits inherited declared
  | .unannotated _ => true

/-- The findings that are findings under the policy as well, in their order. -/
def findingsUnder (p : CallPolicy) (fs : List Finding) : List Finding :=
  fs.filter (·.standsUnder p)

theorem findingsUnder_append (p : CallPolicy) (fs gs : List Finding) :
    findingsUnder p (fs ++ gs) = findingsUnder p fs ++ findingsUnder p gs :=
  List.filter_append ..

theorem findingsUnder_sort (p : CallPolicy) (fs : List Finding) :
    findingsUnder p (Finding.sort fs) = Finding.sort (findingsUnder p fs) :=
  Finding.filter_sort ..

variable {p p' : CallPolicy}

/-! ### The search for declared tags -/

/-- The search with those of its findings only that are findings under the policy. -/
def Search.under (p : CallPolicy) (σ : Search) : Search :=
  { σ with findings := findingsUnder p σ.findings }

namespace Search

variable (p : CallPolicy) (σ : Search)

theorem settled?_under (s : Symbol) : (σ.under p).settled? s = σ.settled? s := rfl

theorem path_under : (σ.under p).path = σ.path := rfl

theorem enter_under (s : Symbol) : (σ.under p).enter s = (σ.enter s).under p := rfl

theorem note_under (e : Event) : (σ.under p).note e = (σ.note e).under p := rfl

theorem close_under (s : Symbol) (tag : Option SourcedTag) (fs : List Finding) :
    (((σ.under p).report (findingsUnder p fs)).leave s).settle s tag =
      (((σ.report fs).leave s).settle s tag).under p := by
  simp [under, report, leave, settle, findingsUnder_append]

end Search

theorem Declaration.conflicts_under (h : p'.Widens p) (d : Declaration) (os : List Obligation) :
    d.conflicts p' os = findingsUnder p' (d.conflicts p os) := by
  have hforbidden : ∀ a b, (!p'.permits a b) = (!p'.permits a b && !p.permits a b) := by
    intro a b
    cases hp : p.permits a b with
    | true => simp [h a b hp]
    | false => simp
  unfold conflicts
  cases d.declaredTag os with
  | none => rfl
  | some t =>
    dsimp only
    split
    · rfl
    · rw [findingsUnder, List.filter_map, List.filter_filter]
      congr 1
      exact List.filter_congr fun o _ => hforbidden o.tag t.tag

namespace Resolver

theorem obligations_under {one one' : Symbol → Search → Option (Option Tag × Search)}
    (h : ∀ s σ, one' s (σ.under p') = (one s σ).map fun f => (f.1, f.2.under p')) :
    ∀ (ps : List Symbol) (σ : Search),
      obligations one' ps (σ.under p') =
        (obligations one ps σ).map fun f => (f.1, f.2.under p')
  | [], _ => rfl
  | s :: ps, σ => by
    rw [obligations, obligations, h]
    cases one s σ with
    | none => rfl
    | some found =>
      dsimp only [Option.map_some]
      rw [obligations_under h ps]
      cases obligations one ps found.2 <;> rfl

/-- The resolver with another policy. -/
def withPolicy (r : Resolver) (p : CallPolicy) : Resolver := { r with policy := p }

/-- A search under a wider policy takes the same course, with fewer findings. -/
theorem settle_under (r : Resolver) (h : p'.Widens r.policy) : ∀ (n : Nat) (s : Symbol) (σ : Search),
    (r.withPolicy p').settle n s (σ.under p') =
      (r.settle n s σ).map fun f => (f.1, f.2.under p')
  | 0, _, _ => rfl
  | n + 1, s, σ => by
    have hone : ∀ q τ, (r.withPolicy p').overriddenTag ((r.withPolicy p').settle n) q
        (τ.under p') = (r.overriddenTag (r.settle n) q τ).map fun f => (f.1, f.2.under p') := by
      intro q τ
      rw [overriddenTag, overriddenTag, withPolicy]
      dsimp only
      split
      · change ((r.withPolicy p').settle n q (τ.under p')).map _ = _
        rw [settle_under r h n q τ, Option.map_map, Option.map_map]
        rfl
      · rfl
    have hroster : (r.withPolicy p').roster = r.roster := rfl
    have hpolicy : (r.withPolicy p').policy = p' := rfl
    rw [settle, settle, Search.settled?_under, hroster, Search.path_under, Search.enter_under,
      Search.note_under, hpolicy]
    cases σ.settled? s with
    | some tag => rfl
    | none =>
      cases r.roster.find? s with
      | none => rfl
      | some d =>
        dsimp only
        split
        · rfl
        · rw [obligations_under hone]
          cases obligations (r.overriddenTag (r.settle n)) d.member.overrides (σ.enter s) with
          | none => rfl
          | some found =>
            dsimp only [Option.map_some]
            rw [Declaration.conflicts_under h, Search.close_under]

/-- The tags so far, and the search with those of its findings only that are findings under the
policy. -/
def stateUnder (p : CallPolicy) (state : TagMap × Search) : TagMap × Search :=
  (state.1, state.2.under p)

theorem settleNext_under (r : Resolver) (h : p'.Widens r.policy) (state : TagMap × Search)
    (s : Symbol) :
    (r.withPolicy p').settleNext (stateUnder p' state) s = stateUnder p' (r.settleNext state s) := by
  have hrun : (r.withPolicy p').settle (r.withPolicy p').depth s
      { (stateUnder p' state).2 with path := [] } =
        (r.settle r.depth s { state.2 with path := [] }).map fun f => (f.1, f.2.under p') :=
    r.settle_under h r.depth s { state.2 with path := [] }
  unfold settleNext
  rw [hrun]
  rcases r.settle r.depth s { state.2 with path := [] } with _ | ⟨_ | tag, τ⟩ <;> rfl

theorem settleAll_under (r : Resolver) (h : p'.Widens r.policy) :
    (r.withPolicy p').settleAll = stateUnder p' r.settleAll := by
  change r.roster.symbols.foldl _ (stateUnder p' (.empty, {})) = _
  exact List.foldl_hom (stateUnder p') (settleNext_under r h)

end Resolver

/-- Under a wider policy a file has the same declared tags, and the search for them has the same
log. -/
theorem SourceUnit.declaredTags_under (u : SourceUnit) (h : p'.Widens p) (o : Outside) :
    u.declaredTags p' o =
      { u.declaredTags p o with findings := findingsUnder p' (u.declaredTags p o).findings } := by
  have hall : Resolver.settleAll ⟨p', u.roster o.exclusions, o⟩ =
      Resolver.stateUnder p' (Resolver.settleAll ⟨p, u.roster o.exclusions, o⟩) :=
    Resolver.settleAll_under ⟨p, u.roster o.exclusions, o⟩ h
  unfold declaredTags
  dsimp only
  rw [hall]
  rfl

/-! ### The call sites -/

namespace CallRules

variable (c : CallRules)

/-- The same rules under another policy. -/
def withPolicy (p : CallPolicy) : CallRules := { c with policy := p }

theorem finding?_under (h : p'.Widens c.policy) (site : CallSite) (target : Symbol) (tag : Tag) :
    ((c.withPolicy p').finding? site target tag).toList =
      findingsUnder p' (c.finding? site target tag).toList := by
  unfold finding? withPolicy
  by_cases hp : c.policy.permits site.callerTag tag = true
  · simp [hp, h _ _ hp, findingsUnder]
  · by_cases hp' : p'.permits site.callerTag tag = true <;>
      simp [hp, hp', findingsUnder, Finding.standsUnder]

/-- The report with those of its findings only that are findings under the policy. -/
def reportUnder (p : CallPolicy) (r : CallReport) : CallReport :=
  { r with findings := findingsUnder p r.findings }

theorem checkSite_under (h : p'.Widens c.policy) (r : CallReport) (site : CallSite) :
    (c.withPolicy p').checkSite (reportUnder p' r) site = reportUnder p' (c.checkSite r site) := by
  have htarget : ∀ s, (c.withPolicy p').targetTag s = c.targetTag s := fun _ => rfl
  unfold checkSite
  cases site.target with
  | none => rfl
  | some target =>
    change (if c.outside.exclusions.covers target.owner then _ else _) = _
    dsimp only
    split
    · rfl
    · simp only [htarget, finding?_under c h, reportUnder, findingsUnder_append]

/-- Under a wider policy the check of call sites counts and logs the same, and has fewer findings. -/
theorem check_under (h : p'.Widens c.policy) (tally : Tally) (sites : List CallSite) :
    (c.withPolicy p').check tally sites = reportUnder p' (c.check tally sites) := by
  change sites.foldl _ (reportUnder p' { tally }) = _
  exact List.foldl_hom (reportUnder p') (c.checkSite_under h)

end CallRules

/-- The report of a file with those of its findings only that are findings under the policy. -/
def UnitFindings.under (p : CallPolicy) (r : UnitFindings) : UnitFindings :=
  { r with findings := findingsUnder p r.findings }

/-- The outcome with those findings only that are findings under the policy. -/
def Outcome.under (p : CallPolicy) : Outcome → Outcome
  | checked r => checked (r.under p)
  | o => o

namespace Checker

/-- A second checker that differs from the first in a wider policy, and in nothing else that
matters. -/
structure Widens (c' c : Checker) : Prop where
  policy : c'.policy.Widens c.policy
  exclusions : c'.exclusions = c.exclusions
  lists : c'.lists = c.lists
  advises : c'.settings.adviseUnannotated = c.settings.adviseUnannotated

section Check

variable {c c' : Checker} (h : c'.Widens c) (u : SourceUnit) (host : HostTable) (b : Build)

include h

theorem outside_under (store : TagStore) : c'.outside store host = c.outside store host := by
  rw [outside, outside, h.exclusions]

theorem declaredTags_under :
    c'.declaredTags u host b =
      { c.declaredTags u host b with
        findings := findingsUnder c'.policy (c.declaredTags u host b).findings } := by
  rw [declaredTags, outside_under h, u.declaredTags_under h.policy]
  rfl

theorem effectiveTags_under : c'.effectiveTags u host b = c.effectiveTags u host b := by
  rw [effectiveTags, declaredTags_under h, h.exclusions, h.advises]
  rfl

/-- A check under a wider policy leaves the same build. -/
theorem build_under : (c'.check u host b).build = (c.check u host b).build := by
  rw [check_build, check_build, effectiveTags_under h, h.lists]

theorem callReport_under :
    c'.callReport u host b = CallRules.reportUnder c'.policy (c.callReport u host b) := by
  have hrules : c'.callRules u host b = (c.callRules u host b).withPolicy c'.policy := by
    have htags : (c'.check u host b).result.tags = (c.check u host b).result.tags :=
      congrArg EffectiveTags.tags (effectiveTags_under h u host b)
    rw [callRules, build_under h, outside_under h, htags]
    rfl
  rw [callReport, hrules, effectiveTags_under h, CallRules.check_under _ h.policy]
  rfl

/-- Its report lacks the findings that the wider policy does away with, and is the same otherwise. -/
theorem result_under :
    (c'.check u host b).result = (c.check u host b).result.under c'.policy := by
  have hadvisories : findingsUnder c'.policy (c.effectiveTags u host b).findings =
      (c.effectiveTags u host b).findings := by
    refine List.filter_eq_self.2 fun f hf => ?_
    have hsev := SourceUnit.severity_of_mem_effectiveTags hf
    rcases f with ⟨_ | _ | _, span⟩
    · cases hsev
    · cases hsev
    · rfl
  rw [check_result, check_result, declaredTags_under h, effectiveTags_under h, callReport_under h,
    UnitFindings.under, findingsUnder_sort, findingsUnder_append, findingsUnder_append, hadvisories]
  rfl

end Check

end Checker

/-! ### Whole sessions -/

namespace Checker

variable {c c' : Checker}

/-- A step under a wider policy leaves the same build, and its report lacks the findings that the
wider policy does away with. -/
theorem stepsLike_under (h : c'.Widens c) : StepsLike (Outcome.under c'.policy) c' c :=
  .of_check h.lists rfl (fun u host b => congrArg Outcome.checked (result_under h u host b))
    (build_under h)

section Sessions

variable {s : Settings} {bridges : List (Tag × Tag)} {b b' : Build} {first second : Step Checker}

theorem widens_of_create (h : create s b = .ok first) (h' : create { s with bridges } b' = .ok second)
    (hwider : second.result.policy.Widens first.result.policy) :
    second.result.Widens first.result := by
  obtain ⟨hsettings, hexclusions, -⟩ := of_create h
  obtain ⟨hsettings', hexclusions', -⟩ := of_create h'
  refine ⟨hwider, hexclusions'.trans hexclusions.symm, ?_, ?_⟩
  · rw [lists_of_create h, lists_of_create h']
  · rw [hsettings, hsettings']

/-- Two checkers are set up with settings that differ in their bridges, the second with a policy that
permits at least what the first permits, and go through the same session from equal stores. At every
step the second session leaves the same store, and the same listing if one is written. Its outcomes
are those of the first: the tags, lambdas and tallies are the same, and of the findings exactly those
are missing whose pair of tags the second policy permits; the others keep their order. -/
theorem session_under_wider_policy (h : create s b = .ok first)
    (h' : create { s with bridges } b' = .ok second)
    (hwider : second.result.policy.Widens first.result.policy) (hstore : b.store = b'.store)
    (hfile : b.listing = .unwritable ↔ b'.listing = .unwritable) (steps : List SessionStep) :
    let run := first.result.session first.build steps
    let run' := second.result.session second.build steps
    run'.map (fun t => (t.result, t.build.store)) =
        run.map (fun t => (t.result.under second.result.policy, t.build.store)) ∧
      (s.listing.isSome = true →
        run'.map (fun t => t.build.listing) = run.map (fun t => t.build.listing)) := by
  exact session_of_create h h' (stepsLike_under (widens_of_create h h' hwider)) hstore hfile rfl steps

end Sessions

/-- A background job that overrides a method of the toolkit, calls into two toolkits, and has a
member that nobody annotated. -/
def toolkitJob : SourceUnit where
  path := "Job.java"
  types := [{ name := "app.Job", members := [
    { symbol := ⟨"app.Job#run()"⟩, kind := .method, tag := some { tag := .worker },
      overrides := [⟨"lib.View#run()"⟩], span := ⟨1, 50⟩
      body := [.use .call (some ⟨"lib.View#paint()"⟩) ⟨10, 20⟩,
        .use .call (some ⟨"lib.Frame#show()"⟩) ⟨30, 40⟩] },
    { symbol := ⟨"app.Job#stop()"⟩, kind := .method, span := ⟨60, 70⟩ }] }]

/-- The two toolkits. -/
def toolkits : HostTable :=
  SymbolMap.ofList [(⟨"lib.View#run()"⟩, { tag := some .fx }),
    (⟨"lib.View#paint()"⟩, { tag := some .fx }), (⟨"lib.Frame#show()"⟩, { tag := some .swing })]

/-- With bridges between the background and the one toolkit, the broken obligation and the first of
the two illegal calls are gone. The call into the other toolkit and the advisory remain. -/
theorem session_under_wider_policy_toolkits :
    let s : Settings := { listing := some "tags.txt" }
    let bridges : List (Tag × Tag) := [(.fxPlatform, .fx), (.worker, .fx), (.fx, .worker)]
    let steps : List SessionStep := [.start, .check toolkitJob toolkits, .finish]
    ∃ first second : Step Checker, create s {} = .ok first ∧
      create { s with bridges } {} = .ok second ∧
      second.result.policy.Widens first.result.policy ∧
      (first.result.check toolkitJob toolkits {}).result.findings.map (·.problem.code) =
        ["ConflictingOverride", "IllegalCrossThreadCall", "IllegalCrossThreadCall",
          "UnannotatedDefault"] ∧
      (second.result.check toolkitJob toolkits {}).result.findings.map (·.problem.code) =
        ["IllegalCrossThreadCall", "UnannotatedDefault"] ∧
      (second.result.session second.build steps).map (fun t => (t.result, t.build.store)) =
        (first.result.session first.build steps).map (fun t =>
          (t.result.under second.result.policy, t.build.store)) ∧
      (second.result.session second.build steps).map (fun t => t.build.listing) =
        (first.result.session first.build steps).map fun t => t.build.listing := by
  intro s bridges steps
  let policy (bs : List (Tag × Tag)) : CallPolicy := (CallPolicy.ofBridges bs).toOption.getD .strict
  let first : Step Checker := ⟨⟨s, policy s.bridges, {}⟩, { listing := .present "" }, []⟩
  let second : Step Checker :=
    ⟨⟨{ s with bridges }, policy bridges, {}⟩, { listing := .present "" }, []⟩
  have h : create s {} = .ok first := rfl
  have h' : create { s with bridges } {} = .ok second := rfl
  have hwider : second.result.policy.Widens first.result.policy := fun a t => by
    cases a <;> cases t <;> decide
  obtain ⟨houtcomes, hlistings⟩ := session_under_wider_policy h h' hwider rfl .rfl steps
  exact ⟨first, second, h, h', hwider, by decide, by decide, houtcomes, hlistings rfl⟩

end Checker

end ThreadAffinity
