import ThreadAffinity.Proofs.Recheck
import ThreadAffinity.Proofs.TagEquations

/-!
Asking the file first.

A member takes the tag of the first symbol that it overrides and that has one. Of such a symbol the
resolution asks the file itself, but of those further up it asks the file only as long as they are
members of it: once a chain has left the file, the store and the host alone have the say, also where
it comes back (`Hierarchy.nearestTag`). To ask the file first about each symbol of the chain is
another thing (`Hierarchy.ownFirstTag`). The two agree where the store and the host know as much of
the members that chains come back to as the file does (`SourceUnit.declaredTags_own_first`), and not
in general (`SourceUnit.declaredTags_not_own_first_detour`). -/

namespace ThreadAffinity

namespace Hierarchy

variable {g : Hierarchy} {tags : TagMap}

/-- The tag of an overridden symbol: a member's own, else what a search beyond the file finds. -/
def nearestTag (g : Hierarchy) (tags : TagMap) (s : Symbol) : Option Tag :=
  if (g.member? s).isSome then (tags.get? s).map (·.tag) else g.outside.tagFrom [] s

/-- The tag of an overridden symbol when the file is asked first about each symbol on the way: a
member's own, else the published one, else the host's, else the first in the same sense among the
symbols that the host's declaration overrides. -/
def ownFirstTag (g : Hierarchy) (tags : TagMap) (wf : WellFounded g.Overridden) (s : Symbol) :
    Option Tag :=
  if (g.member? s).isSome then (tags.get? s).map (·.tag)
  else
    match _h : g.outside.look s with
    | .found tag => tag
    | .onwards ps => ps.attach.findSome? fun ⟨p, _hp⟩ => g.ownFirstTag tags wf p
termination_by wf.wrap s
decreasing_by exact overridden_of_host (Outside.host_of_look _h) _hp

theorem ownFirstTag_of_member (wf : WellFounded g.Overridden) {s : Symbol}
    (h : (g.member? s).isSome) : g.ownFirstTag tags wf s = (tags.get? s).map (·.tag) := by
  rw [ownFirstTag, if_pos h]

theorem ownFirstTag_of_found (wf : WellFounded g.Overridden) {s : Symbol} {tag : Option Tag}
    (h : ¬ (g.member? s).isSome) (hl : g.outside.look s = .found tag) :
    g.ownFirstTag tags wf s = tag := by
  rw [ownFirstTag, if_neg h]
  split <;> simp_all

theorem ownFirstTag_of_onwards (wf : WellFounded g.Overridden) {s : Symbol} {ps : List Symbol}
    (h : ¬ (g.member? s).isSome) (hl : g.outside.look s = .onwards ps) :
    g.ownFirstTag tags wf s = ps.findSome? (g.ownFirstTag tags wf) := by
  rw [ownFirstTag, if_neg h]
  split <;> simp_all

/-- Where a search beyond the file finds for the members that it comes to the tags that they have, it
finds what asking the file first would find. -/
theorem outsideTag_eq_ownFirstTag (wf : WellFounded g.Overridden) (s : Symbol) :
    (∀ q, g.outside.Reached [s] q → (g.member? q).isSome →
      g.outsideTag wf q = (tags.get? q).map (·.tag)) →
      g.outsideTag wf s = g.ownFirstTag tags wf s := by
  induction s using wf.induction with
  | _ s ih =>
    intro h
    have hstart : g.outside.Reached [s] s := .start List.mem_cons_self
    by_cases hs : (g.member? s).isSome
    · rw [h s hstart hs, ownFirstTag_of_member wf hs]
    · rw [outsideTag_eq]
      cases hl : g.outside.look s with
      | found tag => rw [ownFirstTag_of_found wf hs hl]
      | onwards ps =>
        rw [ownFirstTag_of_onwards wf hs hl]
        refine findSome?_congr fun p hp => ?_
        refine ih p (overridden_of_host (Outside.host_of_look hl) hp) fun q hq => h q ?_
        exact hq.trans fun p' hp' => hstart.step hl (List.mem_singleton.1 hp' ▸ hp)

theorem nearestTag_eq_ownFirstTag (hac : g.Acyclic) (wf : WellFounded g.Overridden) {s : Symbol}
    (h : (g.member? s).isSome = false → ∀ q, g.outside.Reached [s] q → (g.member? q).isSome →
      g.outside.tagFrom [] q = (tags.get? q).map (·.tag)) :
    g.nearestTag tags s = g.ownFirstTag tags wf s := by
  have hplain : ∀ q, g.outside.tagFrom [] q = g.outsideTag wf q := fun q =>
    tagFrom_eq hac wf q [] (by simp)
  by_cases hs : (g.member? s).isSome
  · rw [nearestTag, if_pos hs, ownFirstTag_of_member wf hs]
  · rw [nearestTag, if_neg hs, hplain]
    exact outsideTag_eq_ownFirstTag wf s fun q hq hin =>
      (hplain q).symm.trans (h (by simpa using hs) q hq hin)

end Hierarchy

namespace SourceUnit

variable {u : SourceUnit} {o : Outside}

theorem endTag_eq_nearestTag (policy : CallPolicy) (p : Symbol) :
    (Resolver.mk policy (u.roster o.exclusions) o).endTag p =
      (u.hierarchy o).nearestTag (u.declaredTags policy o).tags p := by
  rw [Resolver.endTag, Roster.contains, find?_roster]
  rfl

/-- On an acyclic hierarchy a member without annotation inherits from the first symbol that it
overrides and that has a tag, its own if that is a member, else what the store and the host say. This
is the first tag that the file, the store and the host, asked in this order about each symbol on the
way, come up with, whenever the store and the host give the members that the search comes back to
the tags that these have. -/
theorem declaredTags_own_first (u : SourceUnit) (policy : CallPolicy) (o : Outside)
    (h : (u.hierarchy o).Acyclic) (m : Symbol) (d : Declaration)
    (hd : u.member? o.exclusions m = some d) :
    let tags := (u.declaredTags policy o).tags
    tags.get? m = d.resolve (d.member.overrides.findSome? ((u.hierarchy o).nearestTag tags)) ∧
      ((∀ p ∈ d.member.overrides, (u.member? o.exclusions p).isSome = false →
        ∀ q, o.Reached [p] q → (u.member? o.exclusions q).isSome →
          o.tagFrom [] q = (tags.get? q).map (·.tag)) →
        tags.get? m = d.resolve (d.member.overrides.findSome?
          ((u.hierarchy o).ownFirstTag tags (wellFounded_of_acyclic h)))) := by
  intro tags
  have hnearest : tags.get? m =
      d.resolve (d.member.overrides.findSome? ((u.hierarchy o).nearestTag tags)) := by
    have hac : (Resolver.mk policy (u.roster o.exclusions) o).hierarchy.MembersAcyclic := by
      rw [hierarchy_resolver]
      exact h.membersAcyclic
    have hequation :=
      (Resolver.settleAll_equations hac (nodup_roster_symbols o.exclusions u)).1 m
    rw [find?_roster, hd, Option.bind_some, Hierarchy.declaredTag_obligations,
      Resolver.endObligations, Obligation.head?_flatMap] at hequation
    exact hequation.trans (congrArg d.resolve (findSome?_congr fun p _ =>
      endTag_eq_nearestTag policy p))
  refine ⟨hnearest, fun hback => hnearest.trans (congrArg d.resolve (findSome?_congr fun p hp => ?_))⟩
  exact Hierarchy.nearestTag_eq_ownFirstTag h _ (hback p hp)

/-- What lies outside the file that makes a detour through the library. -/
def detourOutside (store : TagMap) : Outside := ⟨{}, store, Checker.detourHost⟩

/-- How many override steps a symbol of the detour is away from the base. -/
def detourRank (s : Symbol) : Nat :=
  [⟨"app.Base#run()"⟩, ⟨"lib.Task#run()"⟩, ⟨"app.Job#run()"⟩].idxOf s

theorem detour_acyclic (store : TagMap) :
    (Checker.detour.hierarchy (detourOutside store)).Acyclic := by
  have hrank : ∀ s ∈ (Checker.detour.roster {}).symbols ++ Checker.detourHost.keys,
      ∀ p ∈ (Checker.detour.hierarchy (detourOutside .empty)).supers s,
        detourRank p < detourRank s := by decide
  exact acyclic_of_rank detourRank hrank

/-- With nothing published the library's task inherits nothing, although it overrides the base. -/
theorem declaredTags_not_own_first_detour :
    let o := detourOutside .empty
    let tags := (Checker.detour.declaredTags .standard o).tags
    ∃ (h : (Checker.detour.hierarchy o).Acyclic) (d : Declaration),
      Checker.detour.member? {} ⟨"app.Job#run()"⟩ = some d ∧ d.member.tag = none ∧
        tags.get? ⟨"app.Job#run()"⟩ = none ∧
        d.resolve (d.member.overrides.findSome? ((Checker.detour.hierarchy o).ownFirstTag tags
          (wellFounded_of_acyclic h))) = some ⟨.worker, .inherited⟩ := by
  intro o tags
  refine ⟨detour_acyclic _, _, rfl, rfl, by decide, ?_⟩
  have hlook : o.look ⟨"lib.Task#run()"⟩ = .onwards [⟨"app.Base#run()"⟩] := rfl
  have hbase : (Checker.detour.hierarchy o).ownFirstTag tags
      (wellFounded_of_acyclic (detour_acyclic _)) ⟨"app.Base#run()"⟩ = some .worker :=
    (Hierarchy.ownFirstTag_of_member _ rfl).trans (by decide)
  have htask : (Checker.detour.hierarchy o).ownFirstTag tags
      (wellFounded_of_acyclic (detour_acyclic _)) ⟨"lib.Task#run()"⟩ = some .worker := by
    rw [Hierarchy.ownFirstTag_of_onwards _ (by decide) hlook, List.findSome?_cons, hbase]
  rw [List.findSome?_cons, htask]
  rfl

/-- Once the base is published with the tag that it has, the job inherits it through the library. -/
theorem declaredTags_own_first_published :
    let o := detourOutside (SymbolMap.ofList [(⟨"app.Base#run()"⟩, ⟨.worker, .explicit⟩)])
    let tags := (Checker.detour.declaredTags .standard o).tags
    ∃ d, Checker.detour.member? {} ⟨"app.Job#run()"⟩ = some d ∧
      tags.get? ⟨"app.Job#run()"⟩ = d.resolve (d.member.overrides.findSome?
        ((Checker.detour.hierarchy o).ownFirstTag tags
          (wellFounded_of_acyclic (detour_acyclic _)))) ∧
      tags.get? ⟨"app.Job#run()"⟩ = some ⟨.worker, .inherited⟩ := by
  intro o tags
  have htask : o.look ⟨"lib.Task#run()"⟩ = .onwards [⟨"app.Base#run()"⟩] := rfl
  have hbase : o.look ⟨"app.Base#run()"⟩ = .found (some .worker) := rfl
  have hreached : ∀ q, o.Reached [⟨"lib.Task#run()"⟩] q →
      q ∈ [(⟨"lib.Task#run()"⟩ : Symbol), ⟨"app.Base#run()"⟩] := by
    refine fun q hq => hq.mem_of_closed (by decide) fun s hs qs hl => ?_
    rcases List.mem_pair.1 hs with rfl | rfl
    · obtain rfl := Look.onwards.inj (hl.symm.trans htask)
      decide
    · cases hl.symm.trans hbase
  refine ⟨_, rfl, (declaredTags_own_first Checker.detour .standard o (detour_acyclic _) _ _ rfl).2
    fun p hp _ q hq hin => ?_, by decide⟩
  obtain rfl := List.mem_singleton.1 hp
  rcases List.mem_pair.1 (hreached q hq) with rfl | rfl
  · cases hin
  · exact (Outside.tagFrom_found hbase).trans (by decide)

end SourceUnit

end ThreadAffinity
