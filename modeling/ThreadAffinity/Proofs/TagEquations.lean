import ThreadAffinity.Proofs.Obligations
import ThreadAffinity.Proofs.SameSearch

/-!
Equations for declared tags.

Let no chain that a search follows lead from a member of the file back to it. Then no search that
starts from a member comes upon the path that it started from, and what a member inherits is what the
final tags and the searches beyond the file say, taken each on its own
(`Resolver.settleAll_equations`). The host's declarations may form loops among themselves: a search
beyond the file cuts such a loop in the same place from wherever in the file it starts. -/

namespace ThreadAffinity

namespace Outside

variable {o : Outside}

/-- Symbols on the path that the search does not come to make no difference. -/
theorem tagFrom_append_of_unreached (path : List Symbol) {above : List Symbol} {s : Symbol}
    (h : ∀ q ∈ above, ¬ o.Reached [s] q) : o.tagFrom (path ++ above) s = o.tagFrom path s := by
  cases hl : o.look s with
  | found tag => rw [tagFrom_found hl, tagFrom_found hl]
  | onwards ps =>
    have hs : s ∉ above := fun hmem => h s hmem (.start List.mem_cons_self)
    rw [tagFrom_onwards hl, tagFrom_onwards hl]
    by_cases hp : s ∈ path
    · simp [hp]
    · have hlt := offPath_host_lt hl hp
      rw [if_neg (by simp [hp, hs]), if_neg hp]
      refine findSome?_congr fun p hmem =>
        tagFrom_append_of_unreached (s :: path) fun q hq hr => h q hq (hr.trans fun p' hp' => ?_)
      obtain rfl := List.mem_singleton.1 hp'
      exact (Reached.start List.mem_cons_self).step hl hmem
termination_by offPath o.host.keys path

theorem tagFrom_of_unreached {above : List Symbol} {s : Symbol}
    (h : ∀ q ∈ above, ¬ o.Reached [s] q) : o.tagFrom above s = o.tagFrom [] s :=
  tagFrom_append_of_unreached [] h

end Outside

namespace Hierarchy

variable {g : Hierarchy}

/-- Whether a search that stands on `s` goes on to `p`: from a member to what it overrides, from a
symbol beyond the file to what it overrides if nothing else gives it a tag. -/
def Follows (g : Hierarchy) (s p : Symbol) : Prop :=
  (∃ d, g.member? s = some d ∧ p ∈ d.member.overrides) ∨
    ∃ ps, g.outside.look s = .onwards ps ∧ p ∈ ps

/-- Whether no chain that a search follows leads from a member back to it. -/
def MembersAcyclic (g : Hierarchy) : Prop :=
  ∀ s, (g.member? s).isSome → ¬ Relation.TransGen g.Follows s s

theorem follows_of_reached {p q : Symbol} (h : g.outside.Reached [p] q) :
    Relation.ReflTransGen g.Follows p q := by
  induction h with
  | start hs => exact List.mem_singleton.1 hs ▸ .refl
  | step _ hl hq ih => exact ih.tail (Or.inr ⟨_, hl, hq⟩)

theorem overridden_of_follows {s p : Symbol} : g.Follows s p → g.Overridden p s
  | .inl ⟨_, hd, hp⟩ => overridden_of_member hd hp
  | .inr ⟨_, hl, hp⟩ => overridden_of_host (Outside.host_of_look hl) hp

/-- In an acyclic hierarchy no chain leads back, whether through members or beyond. -/
theorem Acyclic.membersAcyclic (h : g.Acyclic) : g.MembersAcyclic := fun s _ hs =>
  h s (Relation.transGen_swap.1 (Relation.TransGen.mono (fun _ _ => overridden_of_follows) s s hs))

end Hierarchy

namespace Resolver

variable {r : Resolver}

theorem follows_of_overrides {q s : Symbol} (h : Relation.TransGen r.Overrides q s) :
    Relation.TransGen r.hierarchy.Follows q s := by
  refine Relation.TransGen.mono ?_ q s h
  rintro m p ⟨d, hd, hp, -⟩
  exact Or.inl ⟨d, hd, hp⟩

theorem member_of_overrides {q s : Symbol} (h : Relation.TransGen r.Overrides q s) :
    (r.hierarchy.member? q).isSome := by
  obtain ⟨p, ⟨d, hd, -⟩, -⟩ := Relation.TransGen.head'_iff.1 h
  exact Option.isSome_iff_exists.2 ⟨d, hd⟩

/-- The tag that an overridden symbol has in the end. -/
def endTag (r : Resolver) (p : Symbol) : Option Tag :=
  if r.roster.contains p then (r.settleAll.1.get? p).map (·.tag) else r.outside.tagFrom [] p

/-- The obligations that overridden symbols bring with them in the end. -/
def endObligations (r : Resolver) (ps : List Symbol) : List Obligation :=
  ps.flatMap fun p => Obligation.ofTag p (r.endTag p)

/-- What a member sees of an overridden symbol is the tag that the symbol has in the end. -/
theorem seen_eq_endTag (h : r.hierarchy.MembersAcyclic) {s p : Symbol} {d : Declaration}
    {above : List Symbol} (hd : r.roster.find? s = some d) (hp : p ∈ d.member.overrides)
    (habove : ∀ q ∈ above, Relation.TransGen r.Overrides q s) :
    r.seen r.settleAll.2 (s :: above) p = r.endTag p := by
  have hstep : r.hierarchy.Follows s p := Or.inl ⟨d, hd, hp⟩
  -- Whatever leads from the overridden symbol to the path would close a loop there.
  have hback : ∀ q ∈ s :: above, ¬ Relation.ReflTransGen r.hierarchy.Follows p q := by
    intro q hq hback
    rcases List.mem_cons.1 hq with rfl | hq
    · exact h q (Option.isSome_iff_exists.2 ⟨d, hd⟩) (.head' hstep hback)
    · have hdown := (follows_of_overrides (habove q hq)).tail hstep
      exact h q (member_of_overrides (habove q hq)) (hdown.trans_left hback)
  cases hin : r.roster.contains p with
  | true =>
    rw [seen_of_member hin fun hmem => hback p hmem .refl, endTag, if_pos hin]
  | false =>
    rw [seen, if_neg (by simp [hin]), endTag, if_neg (by simp [hin])]
    exact Outside.tagFrom_of_unreached fun q hq hr =>
      hback q hq (Hierarchy.follows_of_reached (g := r.hierarchy) hr)

theorem seenObligations_eq (h : r.hierarchy.MembersAcyclic) {s : Symbol} {d : Declaration}
    {above : List Symbol} (hd : r.roster.find? s = some d)
    (habove : ∀ q ∈ above, Relation.TransGen r.Overrides q s) :
    r.seenObligations r.settleAll.2 (s :: above) d.member.overrides =
      r.endObligations d.member.overrides :=
  List.flatMap_congr fun p hp => by rw [seen_eq_endTag h hd hp habove]

/-- The tag of each member is what the tags of the overridden symbols make it, the findings are those
of the members, each counted once, and nothing else has a tag. -/
theorem settleAll_equations (h : r.hierarchy.MembersAcyclic) (hn : r.roster.symbols.Nodup) :
    (∀ s, r.settleAll.1.get? s =
      (r.roster.find? s).bind fun d => d.declaredTag (r.endObligations d.member.overrides)) ∧
    r.settleAll.2.findings.Perm
      (r.roster.declarations.flatMap fun d =>
        d.conflicts r.policy (r.endObligations d.member.overrides)) := by
  have hprogress := r.settleAll_judged
  refine ⟨fun s => ?_, ?_⟩
  · cases hd : r.roster.find? s with
    | none =>
      have hs : s ∉ r.roster.symbols := fun hs => by simp [Roster.mem_symbols_iff, hd] at hs
      rw [hprogress.tags, if_neg hs, Option.bind_none]
    | some d =>
      obtain ⟨above, os, habove, rfl, htag, -⟩ := r.exists_judged hd
      rw [htag, seenObligations_eq h hd habove, Option.bind_some]
  · obtain ⟨vs, hvs⟩ := hprogress.ledger
    have hfindings : r.settleAll.2.findings = (vs.map Verdict.declaration).flatMap fun d =>
        d.conflicts r.policy (r.endObligations d.member.overrides) := by
      rw [hvs.findings, List.flatMap_map]
      refine List.flatMap_congr fun v hv => ?_
      obtain ⟨hfind, above, habove, hos⟩ := hvs.sound v hv
      rw [hos, seenObligations_eq h hfind habove]
    rw [hfindings]
    exact (perm_declarations hn hvs hprogress.settled).flatMap_right _

end Resolver

end ThreadAffinity
