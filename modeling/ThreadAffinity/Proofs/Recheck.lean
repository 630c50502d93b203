import ThreadAffinity.Proofs.Publication
import ThreadAffinity.Proofs.Report
import ThreadAffinity.Proofs.SameSearch
import ThreadAffinity.Proofs.Walk

/-!
Checking a file twice in a row.

The first check publishes what the second one reads. The walk and the check of the call sites do not
mind: they see the same publications both times. The search for declared tags may, because a chain of
host declarations can lead back into the file, and there it finds the file's own members only once
they are published. A second check therefore repeats the first exactly when its search for declared
tags does (`Checker.repeats_iff`), and it does unless such a chain comes to an exported member. -/

namespace ThreadAffinity

namespace Checker

variable (c : Checker) (u : SourceUnit) (host : HostTable) (b : Build)

/-- A second check of the file has the same result and leaves the published tags as they are. -/
def Repeats : Prop :=
  (c.check u host (c.check u host b).build).result = (c.check u host b).result ∧
    (c.check u host (c.check u host b).build).build.store.tags = (c.check u host b).build.store.tags

/-- What lies outside the file once its publications are out. -/
def outsideAfter : Outside := c.outside (c.check u host b).build.store host

/-! ### What the second check depends on -/

theorem check_store :
    (c.check u host b).build.store = (b.store.publishAll (publications (c.effectiveTags u host b))).1 :=
  rfl

variable {c u host b}

theorem effectiveTags_congr {b' : Build}
    (h : (c.declaredTags u host b').tags = (c.declaredTags u host b).tags) :
    c.effectiveTags u host b' = c.effectiveTags u host b := by
  rw [effectiveTags, h, effectiveTags]

/-- With the same declared tags the same is published, and the store does not change again. -/
theorem store_of_declaredTags {b' : Build}
    (hb : b'.store = (c.check u host b).build.store)
    (h : (c.declaredTags u host b').tags = (c.declaredTags u host b).tags) :
    (c.check u host b').build.store.tags = (c.check u host b).build.store.tags := by
  rw [check_store, effectiveTags_congr h, hb, check_store, TagStore.tags_publishAll_idem]

/-- With the same declared tags and the same broken obligations everything else is the same. -/
theorem result_of_declaredTags {b' : Build}
    (hb : b'.store = (c.check u host b).build.store)
    (h : (c.declaredTags u host b').tags = (c.declaredTags u host b).tags)
    (hf : Finding.sort (c.declaredTags u host b').findings =
      Finding.sort (c.declaredTags u host b).findings) :
    (c.check u host b').result = (c.check u host b).result := by
  have heffective := effectiveTags_congr h
  have hrules : c.callRules u host b' = c.callRules u host b := by
    unfold callRules outside
    rw [store_of_declaredTags hb h, check_result, check_result, heffective]
  have hcalls : c.callReport u host b' = c.callReport u host b := by
    rw [callReport, hrules, heffective, callReport]
  rw [check_result, check_result, heffective, hcalls, List.append_assoc, List.append_assoc,
    ← Finding.sort_sort_append, hf, Finding.sort_sort_append]

/-- The declared tags of a file can be read off its report. -/
theorem declaredTags_of_result {b' : Build}
    (h : (c.check u host b').result.tags = (c.check u host b).result.tags) :
    (c.declaredTags u host b').tags = (c.declaredTags u host b).tags := by
  refine SymbolMap.ext_get? fun s => ?_
  have heffective : (c.effectiveTags u host b').tags = (c.effectiveTags u host b).tags := h
  have hread : ∀ b : Build, (c.declaredTags u host b).tags.get? s =
      ((c.effectiveTags u host b).tags.get? s).filter (·.origin.isDeclared) := fun b =>
    u.declared_of_effective c.policy (c.outside b.store host) c.settings.adviseUnannotated s
  rw [hread, hread, heffective]

/-! ### What the publications of a file can change -/

/-- What is published are the exported symbols, each with its effective tag. -/
theorem mem_publications_iff {e : EffectiveTags} {p : Symbol × SourcedTag} :
    p ∈ publications e ↔ p.1 ∈ e.exported ∧ e.tags.get? p.1 = some p.2 := by
  rw [publications, List.mem_filterMap]
  constructor
  · rintro ⟨s, hs, hp⟩
    obtain ⟨t, ht, rfl⟩ := Option.map_eq_some_iff.1 hp
    exact ⟨hs, ht⟩
  · rintro ⟨hs, ht⟩
    exact ⟨p.1, hs, by rw [ht, Option.map_some]⟩

/-- Only what a file exports is published. -/
theorem store_get?_of_not_exported {s : Symbol} (h : s ∉ (c.effectiveTags u host b).exported) :
    (c.outsideAfter u host b).store.get? s = (c.outside b.store host).store.get? s := by
  change (c.check u host b).build.store.tags.get? s = b.store.tags.get? s
  rw [check_store, TagStore.tags_publishAll]
  split
  · rfl
  · have hnone : (publications (c.effectiveTags u host b)).reverse.lookup s = none := by
      refine List.lookup_eq_none_iff.2 fun p hp => ?_
      have hexp := (mem_publications_iff.1 (List.mem_reverse.1 hp)).1
      have hne : s ≠ p.1 := fun he => h (he ▸ hexp)
      simpa using hne
    rw [SymbolMap.get?_foldl_put, hnone, Option.none_or]

/-- What a file exports is in the store afterwards, with its effective tag. -/
theorem store_get?_of_exported (hopen : b.store.isSealed = false) {s : Symbol} {t : SourcedTag}
    (hs : s ∈ (c.effectiveTags u host b).exported)
    (ht : (c.effectiveTags u host b).tags.get? s = some t) :
    (c.check u host b).build.store.tags.get? s = some t := by
  have hmem : (s, t) ∈ publications (c.effectiveTags u host b) := mem_publications_iff.2 ⟨hs, ht⟩
  have hlookup : (publications (c.effectiveTags u host b)).reverse.lookup s = some t := by
    obtain ⟨t', ht'⟩ := Option.isSome_iff_exists.1
      (List.lookup_isSome_iff.2 ⟨_, List.mem_reverse.2 hmem, beq_self_eq_true s⟩)
    obtain ⟨l, l', hl, -⟩ := List.lookup_eq_some_iff.1 ht'
    have hmem' : (s, t') ∈ publications (c.effectiveTags u host b) := by
      rw [← List.mem_reverse, hl]
      exact List.mem_append_right _ List.mem_cons_self
    have heffective : (c.effectiveTags u host b).tags.get? s = some t' :=
      (mem_publications_iff.1 hmem').2
    rw [ht', ← heffective, ht]
  rw [check_store, TagStore.tags_publishAll, hopen, if_neg Bool.false_ne_true,
    SymbolMap.get?_foldl_put, hlookup, Option.some_or]

/-- A file has the same declared tags again when its searches come to no exported member whose
published tag is new to them. -/
theorem declaredTags_again
    (h : ∀ s ∈ (c.effectiveTags u host b).exported,
      (c.outside b.store host).Reached (u.overriddenBeyond c.exclusions) s →
        (c.outsideAfter u host b).publishedTag? s = (c.outside b.store host).publishedTag? s) :
    c.declaredTags u host (c.check u host b).build = c.declaredTags u host b := by
  refine u.declaredTags_congr c.policy rfl rfl fun s hs => ?_
  have hpublished :
      (c.outsideAfter u host b).publishedTag? s = (c.outside b.store host).publishedTag? s := by
    by_cases hexp : s ∈ (c.effectiveTags u host b).exported
    · exact h s hexp hs
    · rw [Outside.publishedTag?, store_get?_of_not_exported hexp, Outside.publishedTag?]
  change (c.outsideAfter u host b).look s = _
  rw [Outside.look, hpublished, Outside.look]
  rfl

/-- A second check repeats the first exactly when the declared tags and the broken obligations of the
file are the same once its publications are out. That is so unless a search beyond the file comes to
an exported member of it whose published tag is not yet in the store. -/
theorem repeats_iff (c : Checker) (u : SourceUnit) (host : HostTable) (b : Build) :
    (c.Repeats u host b ↔
      (u.declaredTags c.policy (c.outsideAfter u host b)).tags =
          (u.declaredTags c.policy (c.outside b.store host)).tags ∧
        Finding.sort (u.declaredTags c.policy (c.outsideAfter u host b)).findings =
          Finding.sort (u.declaredTags c.policy (c.outside b.store host)).findings) ∧
      ((∀ s ∈ (c.effectiveTags u host b).exported,
        (c.outside b.store host).Reached (u.overriddenBeyond c.exclusions) s →
          (c.outsideAfter u host b).publishedTag? s = (c.outside b.store host).publishedTag? s) →
        c.Repeats u host b) := by
  refine ⟨⟨fun ⟨hresult, _⟩ => ⟨?_, ?_⟩, fun ⟨htags, hfindings⟩ => ⟨?_, ?_⟩⟩, fun h => ?_⟩
  · exact declaredTags_of_result (congrArg UnitFindings.tags hresult)
  · have hconflicts := congrArg (·.findings.filter Finding.isConflict) hresult
    rwa [conflicts_eq, conflicts_eq] at hconflicts
  · exact result_of_declaredTags rfl htags hfindings
  · exact store_of_declaredTags rfl htags
  · have hagain := declaredTags_again h
    exact ⟨result_of_declaredTags rfl (by rw [hagain]) (by rw [hagain]),
      store_of_declaredTags rfl (by rw [hagain])⟩

/-! ### A chain that leads back into the file -/

/-- A checker without settings. -/
def plain : Checker := ⟨{}, .standard, {}⟩

/-- A base and a member that overrides it by way of the library. -/
def detour : SourceUnit where
  path := "Detour.java"
  types := [{ name := "app.Base", members := [
    { symbol := ⟨"app.Base#run()"⟩, kind := .method, tag := some { tag := .worker } }] },
    { name := "app.Job", members := [
    { symbol := ⟨"app.Job#run()"⟩, kind := .method, overrides := [⟨"lib.Task#run()"⟩] }] }]

/-- A library whose task overrides the base of the file that uses it. -/
def detourHost : HostTable :=
  SymbolMap.ofList [(⟨"lib.Task#run()"⟩, { overrides := [⟨"app.Base#run()"⟩] })]

/-- The library's task inherits nothing from the base before the base is published, so the first
check takes the member for universal and the second for one that runs in the background. -/
theorem not_repeats_detour :
    let b := (plain.start {}).build
    let first := plain.check detour detourHost b
    let second := plain.check detour detourHost first.build
    first.result.tags.get? ⟨"app.Job#run()"⟩ = some ⟨.any, .assumed⟩ ∧
      second.result.tags.get? ⟨"app.Job#run()"⟩ = some ⟨.worker, .inherited⟩ ∧
      second.build.store.tags ≠ first.build.store.tags ∧ ¬ plain.Repeats detour detourHost b := by
  refine ⟨by decide, by decide, by decide, fun h => ?_⟩
  have hsame := congrArg (·.tags.get? ⟨"app.Job#run()"⟩) h.1
  exact absurd hsame (by decide)

/-- From the second check on nothing changes any more: the only exported member that the search for
the job comes to is the base, and its tag is in the store. -/
theorem repeats_detour_again :
    let b := (plain.check detour detourHost (plain.start {}).build).build
    (∀ s ∈ (plain.effectiveTags detour detourHost b).exported,
      (plain.outside b.store detourHost).Reached (detour.overriddenBeyond plain.exclusions) s →
        (plain.outsideAfter detour detourHost b).publishedTag? s =
          (plain.outside b.store detourHost).publishedTag? s) ∧
      plain.Repeats detour detourHost b := by
  intro b
  have hreached : ∀ s,
      (plain.outside b.store detourHost).Reached (detour.overriddenBeyond plain.exclusions) s →
        s ∈ [⟨"lib.Task#run()"⟩, ⟨"app.Base#run()"⟩] := by
    have htask : (plain.outside b.store detourHost).look ⟨"lib.Task#run()"⟩ =
        .onwards [⟨"app.Base#run()"⟩] := rfl
    have hbase : (plain.outside b.store detourHost).look ⟨"app.Base#run()"⟩ =
        .found (some .worker) := rfl
    intro s hs
    induction hs with
    | start hs => exact List.mem_cons.2 (Or.inl (List.mem_singleton.1 hs))
    | step _ hl hq ih =>
      rcases List.mem_cons.1 ih with rfl | ih
      · obtain rfl := Look.onwards.inj (hl.symm.trans htask)
        exact List.mem_cons_of_mem _ hq
      · obtain rfl := List.mem_singleton.1 ih
        cases hl.symm.trans hbase
  have hpublished : ∀ s ∈ (plain.effectiveTags detour detourHost b).exported,
      s ∈ [⟨"lib.Task#run()"⟩, ⟨"app.Base#run()"⟩] →
        (plain.outsideAfter detour detourHost b).publishedTag? s =
          (plain.outside b.store detourHost).publishedTag? s := by decide
  have h := fun s hs hr => hpublished s hs (hreached s hr)
  exact ⟨h, (repeats_iff plain detour detourHost b).2 h⟩

end Checker

end ThreadAffinity
