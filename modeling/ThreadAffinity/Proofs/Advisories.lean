import ThreadAffinity.Proofs.Sessions

/-!
Advisories only prompt.

Whether members that nobody annotated are pointed out is one flag of the settings. Only the walk
through a file reads it, and only to hold its advisories back or not. Picking findings commutes with
putting them in report order, although advisories may stand between errors there. So without
advisories a report is the same but for them (`Checker.result_silent`), and a whole session leaves
the same store and the same listing (`Checker.session_without_advisories`). -/

namespace ThreadAffinity

namespace Finding

/-- Whether the finding is an advisory about a member that nobody annotated. -/
def isUnannotated (f : Finding) : Bool := f.problem.code == "UnannotatedDefault"

theorem severity_eq_error (f : Finding) : (f.severity == .error) = !f.isUnannotated := by
  rcases f with ⟨_ | _ | _, span⟩ <;> rfl

theorem isUnannotated_of_advisory {f : Finding} (h : f.severity = .advisory) :
    f.isUnannotated = true := by
  rcases f with ⟨_ | _ | _, span⟩
  · cases h
  · cases h
  · rfl

theorem not_isUnannotated_of_isConflict {f : Finding} (h : f.isConflict = true) :
    f.isUnannotated = false := by
  rcases f with ⟨_ | _ | _, span⟩
  · rfl
  · rfl
  · cases h

theorem not_isUnannotated_of_isIllegalCall {f : Finding} (h : f.isIllegalCall = true) :
    f.isUnannotated = false := by
  rcases f with ⟨_ | _ | _, span⟩
  · rfl
  · rfl
  · cases h

end Finding

/-- The report without its advisories. -/
def UnitFindings.withoutAdvisories (r : UnitFindings) : UnitFindings :=
  { r with findings := r.findings.filter (!·.isUnannotated) }

/-- The outcome without the advisories of its report. -/
def Outcome.withoutAdvisories : Outcome → Outcome
  | checked r => checked r.withoutAdvisories
  | o => o

/-- The receiver of diagnostics gets the errors of a report, if it has no advisories. -/
theorem Checker.reported_withoutAdvisories (u : SourceUnit) (r : UnitFindings) :
    Checker.reported u r.withoutAdvisories =
      (Checker.reported u r).filter (·.severity == .error) := by
  have hseverity : ∀ f : Finding,
      ((Diagnostic.ofFinding u.path f).severity == .error) = !f.isUnannotated :=
    Finding.severity_eq_error
  unfold Checker.reported diagnostics UnitFindings.withoutAdvisories
  rw [List.filter_map]
  congr 1
  exact List.filter_congr fun f _ => (hseverity f).symm

/-- What the walk found out, with its findings held back. -/
def EffectiveTags.silent (e : EffectiveTags) : EffectiveTags := { e with findings := [] }

/-! ### The check of a file -/

namespace Checker

/-- A second checker that holds advisories back, and does not differ from the first in anything else
that matters. -/
structure Silences (c' c : Checker) : Prop where
  policy : c'.policy = c.policy
  exclusions : c'.exclusions = c.exclusions
  lists : c'.lists = c.lists
  silent : c'.settings.adviseUnannotated = false

section Check

variable {c c' : Checker} (h : c'.Silences c) (u : SourceUnit) (host : HostTable) (b : Build)

include h

theorem outside_silent (store : TagStore) : c'.outside store host = c.outside store host := by
  rw [outside, outside, h.exclusions]

theorem declaredTags_silent : c'.declaredTags u host b = c.declaredTags u host b := by
  rw [declaredTags, outside_silent h, h.policy, declaredTags]

/-- The walk finds out the same, and holds its advisories back. -/
theorem effectiveTags_silent :
    c'.effectiveTags u host b = (c.effectiveTags u host b).silent := by
  rw [effectiveTags, declaredTags_silent h, h.exclusions, h.silent]
  rfl

theorem build_silent : (c'.check u host b).build = (c.check u host b).build := by
  rw [check_build, check_build, effectiveTags_silent h, h.lists]
  rfl

theorem callReport_silent : c'.callReport u host b = c.callReport u host b := by
  have hrules : c'.callRules u host b = c.callRules u host b := by
    rw [callRules, build_silent h, outside_silent h, h.policy, callRules, check_result,
      check_result, effectiveTags_silent h]
    rfl
  rw [callReport, hrules, effectiveTags_silent h, callReport]
  rfl

/-- Without advisories a report is the same but for them. -/
theorem result_silent :
    (c'.check u host b).result = (c.check u host b).result.withoutAdvisories := by
  have hconflicts : (c.declaredTags u host b).findings.filter (!·.isUnannotated) =
      (c.declaredTags u host b).findings := List.filter_eq_self.2 fun f hf => by
    rw [Finding.not_isUnannotated_of_isConflict (isConflict_of_mem_declaredTags hf).1, Bool.not_false]
  have hadvisories : (c.effectiveTags u host b).findings.filter (!·.isUnannotated) = [] :=
    List.filter_eq_nil_iff.2 fun f hf => by
      rw [Finding.isUnannotated_of_advisory (SourceUnit.severity_of_mem_effectiveTags hf)]
      exact Bool.false_ne_true
  have hcalls : (c.callReport u host b).findings.filter (!·.isUnannotated) =
      (c.callReport u host b).findings := List.filter_eq_self.2 fun f hf => by
    rw [Finding.not_isUnannotated_of_isIllegalCall (isIllegalCall_of_mem_callReport hf).2,
      Bool.not_false]
  rw [check_result, check_result, UnitFindings.withoutAdvisories, Finding.filter_sort,
    List.filter_append, List.filter_append, hconflicts, hadvisories, hcalls, declaredTags_silent h,
    callReport_silent h, effectiveTags_silent h]
  rfl

theorem stepsLike_silent : StepsLike Outcome.withoutAdvisories c' c :=
  .of_check h.lists rfl (fun u host b => congrArg Outcome.checked (result_silent h u host b))
    (build_silent h)

end Check

end Checker

/-! ### Whole sessions -/

/-- The diagnostics that a step of a session passes on. -/
def SessionStep.reported : SessionStep → Outcome → List Diagnostic
  | check u _, .checked found => Checker.reported u found
  | _, _ => []

theorem SessionStep.reported_withoutAdvisories (step : SessionStep) (o : Outcome) :
    step.reported o.withoutAdvisories = (step.reported o).filter (·.severity == .error) := by
  cases step with
  | check u host =>
    cases o with
    | checked found => exact Checker.reported_withoutAdvisories u found
    | _ => rfl
  | _ => rfl

namespace Checker

/-- The same settings but for the flag set up two checkers of which one silences the other. -/
theorem exists_create_silent {s : Settings} {b : Build} {first : Step Checker}
    (h : create (s.advising true) b = .ok first) (b' : Build) :
    ∃ second, create (s.advising false) b' = .ok second ∧ second.result.Silences first.result := by
  rw [create_eq] at h
  change s.policy.map _ = _ at h
  cases hpolicy : s.policy with
  | error e => simp [hpolicy, Except.map] at h
  | ok policy =>
    rw [hpolicy] at h
    cases h
    let c' : Checker := ⟨s.advising false, policy, s.exclusions⟩
    refine ⟨⟨c', c'.resetListing b', c'.resetEvents b'⟩, ?_, rfl, rfl, rfl, rfl⟩
    rw [create_eq]
    change s.policy.map _ = _
    rw [hpolicy]
    rfl

/-- Settings that advise on members without annotations set a checker up. Then the same settings
without advisories do so too, and both checkers go through the same session from equal stores. At
every step the second session leaves the same store, and the same listing if one is written. Its
outcomes are those of the first without the advisories: the tags, lambdas and tallies are the same,
and so are the other findings, in their order. What reaches the receiver of diagnostics at each step
are the errors of the first session, in their order. -/
theorem session_without_advisories {s : Settings} {b b' : Build} {first : Step Checker}
    (h : create (s.advising true) b = .ok first) (hstore : b.store = b'.store)
    (hfile : b.listing = .unwritable ↔ b'.listing = .unwritable) (steps : List SessionStep) :
    ∃ second, create (s.advising false) b' = .ok second ∧
      let run := first.result.session first.build steps
      let run' := second.result.session second.build steps
      run'.map (fun t => (t.result, t.build.store)) =
          run.map (fun t => (t.result.withoutAdvisories, t.build.store)) ∧
        (s.listing.isSome = true →
          run'.map (fun t => t.build.listing) = run.map (fun t => t.build.listing)) ∧
        steps.zipWith SessionStep.reported (run'.map Step.result) =
          (steps.zipWith SessionStep.reported (run.map Step.result)).map
            (·.filter (·.severity == .error)) := by
  obtain ⟨second, h', hsilences⟩ := exists_create_silent h b'
  obtain ⟨houtcomes, hlistings⟩ :=
    session_of_create h h' (stepsLike_silent hsilences) hstore hfile rfl steps
  refine ⟨second, h', houtcomes, hlistings, ?_⟩
  have hresults := congrArg (List.map Prod.fst) houtcomes
  rw [List.map_map, List.map_map] at hresults
  have hview : (second.result.session second.build steps).map Step.result =
      ((first.result.session first.build steps).map Step.result).map Outcome.withoutAdvisories := by
    rw [List.map_map]
    exact hresults
  rw [hview, List.zipWith_map_right, List.map_zipWith]
  simp only [SessionStep.reported_withoutAdvisories]

/-- A window with two members that stand at one place: nobody annotated the first, and the second
breaks the obligation of the member that it overrides. -/
def draft : SourceUnit where
  path := "Draft.java"
  types := [{ name := "app.Draft", members := [
    { symbol := ⟨"app.Draft#load()"⟩, kind := .method, span := ⟨1, 50⟩
      body := [.lambda none [.use .call (some ⟨"app.Draft#show()"⟩) ⟨10, 20⟩] ⟨5, 25⟩] },
    { symbol := ⟨"app.Draft#show()"⟩, kind := .method, tag := some { tag := .worker },
      overrides := [⟨"lib.Window#show()"⟩], span := ⟨1, 50⟩ }] }]

/-- The library that the window comes from. -/
def windows : HostTable := SymbolMap.ofList [(⟨"lib.Window#show()"⟩, { tag := some .swing })]

/-- The advisory stands between the broken obligation, at the same place, and the illegal call. Without
it the two errors remain in their order. -/
theorem session_without_advisories_draft :
    let s : Settings := { listing := some "tags.txt" }
    let steps : List SessionStep := [.start, .check draft windows, .finish]
    ∃ first second : Step Checker, create (s.advising true) {} = .ok first ∧
      create (s.advising false) {} = .ok second ∧
      (first.result.check draft windows {}).result.findings.map (·.problem.code) =
        ["ConflictingOverride", "UnannotatedDefault", "IllegalCrossThreadCall"] ∧
      (second.result.check draft windows {}).result.findings.map (·.problem.code) =
        ["ConflictingOverride", "IllegalCrossThreadCall"] ∧
      let run := first.result.session first.build steps
      let run' := second.result.session second.build steps
      run'.map (fun t => (t.result, t.build.store)) =
          run.map (fun t => (t.result.withoutAdvisories, t.build.store)) ∧
        run'.map (fun t => t.build.listing) = run.map (fun t => t.build.listing) ∧
        steps.zipWith SessionStep.reported (run'.map Step.result) =
          (steps.zipWith SessionStep.reported (run.map Step.result)).map
            (·.filter (·.severity == .error)) := by
  intro s steps
  let c (on : Bool) : Step Checker :=
    ⟨⟨s.advising on, (CallPolicy.ofBridges s.bridges).toOption.getD .strict, {}⟩,
      { listing := .present "" }, []⟩
  have h : create (s.advising true) {} = .ok (c true) := rfl
  have hsilent : create (s.advising false) {} = .ok (c false) := rfl
  obtain ⟨second, h', houtcomes, hlistings, hreported⟩ :=
    session_without_advisories h rfl .rfl steps
  obtain rfl : c false = second := Except.ok.inj (hsilent.symm.trans h')
  exact ⟨c true, c false, h, hsilent, by decide, by decide, houtcomes, hlistings rfl, hreported⟩

end Checker

end ThreadAffinity
