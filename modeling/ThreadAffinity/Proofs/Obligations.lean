import ThreadAffinity.Proofs.Dispatch

/-!
Obligations, seen from the end of the search.

A member is settled while those above it wait, so its obligations are read off a state that has yet
to grow. In the end they are what the final tags say they are, with one exception: a member that the
search stands on has no tag yet, and whoever overrides it is spared the obligation
(`Resolver.settleAll_judged`). The members that the search stands on override, over one or more
steps, the one in hand. So a broken obligation goes unreported only where overrides form a loop
(`SourceUnit.broken_obligation_reported`), and there it may
(`SourceUnit.broken_obligation_unreported_ring`). -/

namespace ThreadAffinity

namespace Search

/-- Whether all that is settled in one state stays settled in another. -/
def KeptBy (σ τ : Search) : Prop := ∀ s tag, σ.settled? s = some tag → τ.settled? s = some tag

/-- Whether no member that the search stands on is settled. -/
def Unsettled (σ : Search) : Prop := ∀ q ∈ σ.path, σ.settled? q = none

theorem KeptBy.refl (σ : Search) : σ.KeptBy σ := fun _ _ h => h

theorem KeptBy.trans {σ τ υ : Search} (h : σ.KeptBy τ) (h' : τ.KeptBy υ) : σ.KeptBy υ :=
  fun s tag hs => h' s tag (h s tag hs)

end Search

/-- An obligation that the member's tag breaks is among its conflicts, unless it is waived. -/
theorem Declaration.conflict_mem_conflicts {d : Declaration} {policy : CallPolicy}
    {os : List Obligation} {t : SourcedTag} {o : Obligation} (ht : d.declaredTag os = some t)
    (hwaives : d.waives = false) (ho : o ∈ os) (hbroken : policy.permits o.tag t.tag = false) :
    d.conflict t.tag o ∈ d.conflicts policy os := by
  rw [conflicts, ht]
  simp only [hwaives, Bool.false_eq_true, if_false]
  exact List.mem_map_of_mem (List.mem_filter.2 ⟨ho, by simp [CallPolicy.honours, hbroken]⟩)

namespace Resolver

variable {r : Resolver}

/-- Whether a member of the file overrides another one directly. -/
def Overrides (r : Resolver) (m p : Symbol) : Prop :=
  ∃ d, r.roster.find? m = some d ∧ p ∈ d.member.overrides ∧ r.roster.contains p = true

/-- A path that leads down to a member leads on, with the member, to what it overrides. -/
theorem Overrides.below {s p : Symbol} {path : List Symbol} (h : r.Overrides s p)
    (habove : ∀ q ∈ path, Relation.TransGen r.Overrides q s) :
    ∀ q ∈ s :: path, Relation.TransGen r.Overrides q p := by
  intro q hq
  rcases List.mem_cons.1 hq with rfl | hq
  · exact .single h
  · exact (habove q hq).tail h

/-- The tag that the search finds for an overridden symbol from a path, when `ω` is how it ends:
nothing for a member that it stands on, the final tag of any other member. -/
def seen (r : Resolver) (ω : Search) (path : List Symbol) (p : Symbol) : Option Tag :=
  if r.roster.contains p then
    if p ∈ path then none else (ω.settled? p).join.map (·.tag)
  else r.outside.tagFrom path p

/-- The obligations that overridden symbols bring with them, as seen from a path. -/
def seenObligations (r : Resolver) (ω : Search) (path ps : List Symbol) : List Obligation :=
  ps.flatMap fun p => Obligation.ofTag p (r.seen ω path p)

/-- A verdict by the final tags, reached from below members each of which leads down to it. -/
def Judged (r : Resolver) (ω : Search) (v : Verdict) : Prop :=
  ∃ above, (∀ q ∈ above, Relation.TransGen r.Overrides q v.symbol) ∧
    v.obligations = r.seenObligations ω (v.symbol :: above) v.declaration.member.overrides

theorem Ledger.keptBy {ok : Verdict → Prop} {vs : List Verdict} {σ τ : Search}
    (h : r.Ledger ok vs σ τ) : σ.KeptBy τ := fun _ _ hs => h.settled?_mono hs

theorem Ledger.unsettled {ok : Verdict → Prop} {vs : List Verdict} {σ τ : Search}
    (h : r.Ledger ok vs σ τ) (hσ : σ.Unsettled) : τ.Unsettled := by
  intro q hq
  rw [h.path] at hq
  by_contra hne
  obtain ⟨tag, htag⟩ := Option.ne_none_iff_exists'.1 hne
  rcases h.settled?_cases htag with hs | ⟨v, hv, rfl, -⟩
  · simp [hσ q hq] at hs
  · exact (h.fresh v hv).1 hq

theorem keptBy_close {d : Declaration} {os : List Obligation} {τ : Search}
    (h : τ.settled? d.member.symbol = none) : τ.KeptBy (r.close d os τ) := by
  intro s tag hs
  have hne : s ≠ d.member.symbol := by
    rintro rfl
    simp [h] at hs
  rwa [settled?_close, if_neg hne]

theorem seenObligations_cons (ω : Search) (path : List Symbol) (p : Symbol) (ps : List Symbol) :
    r.seenObligations ω path (p :: ps) =
      Obligation.ofTag p (r.seen ω path p) ++ r.seenObligations ω path ps :=
  List.flatMap_cons ..

/-! ### Every verdict is by the final tags -/

/-- A run that ends in `τ` finds what the end of the search `ω` says, and so do its verdicts. -/
theorem settle_judged {n : Nat} {s : Symbol} {σ τ : Search} {v : Option SourcedTag}
    (h : r.settle n s σ = some (v, τ)) (hσ : σ.Unsettled)
    (habove : ∀ q ∈ σ.path, Relation.TransGen r.Overrides q s) {ω : Search} (hω : τ.KeptBy ω) :
    (r.roster.contains s = true → v = if s ∈ σ.path then none else (ω.settled? s).join) ∧
      ∃ vs, r.Ledger (r.Judged ω) vs σ τ := by
  refine settle_induct
    (P := fun s σ v τ => σ.Unsettled → (∀ q ∈ σ.path, Relation.TransGen r.Overrides q s) →
      ∀ ω, τ.KeptBy ω →
        (r.roster.contains s = true → v = if s ∈ σ.path then none else (ω.settled? s).join) ∧
          ∃ vs, r.Ledger (r.Judged ω) vs σ τ)
    (Q := fun ps σ os τ => σ.Unsettled →
      (∀ p ∈ ps, r.roster.contains p = true → ∀ q ∈ σ.path, Relation.TransGen r.Overrides q p) →
      ∀ ω, τ.KeptBy ω →
        os = r.seenObligations ω σ.path ps ∧ ∃ vs, r.Ledger (r.Judged ω) vs σ τ)
    ?known ?foreign ?loop ?body ?nil ?own ?beyond n s σ v τ h hσ habove ω hω
  case known =>
    intro s σ v hs hσ _ ω hω
    refine ⟨fun _ => ?_, [], .of_eq rfl rfl rfl⟩
    have hp : s ∉ σ.path := fun hmem => by simp [hσ s hmem] at hs
    rw [if_neg hp, hω s v hs, Option.join_some]
  case foreign =>
    intro s σ _ hf _ _ ω _
    exact ⟨fun hin => by simp [Roster.contains, hf] at hin, [], .of_eq rfl rfl rfl⟩
  case loop =>
    intro s σ d _ _ hp _ _ ω _
    exact ⟨fun _ => by rw [if_pos hp], [], .of_eq rfl rfl rfl⟩
  case body =>
    intro s σ d os τ hs hd hp hq hσ habove ω hω
    have henter : (σ.enter s).Unsettled := List.forall_mem_cons.2 ⟨hs, hσ⟩
    have hbelow : ∀ p ∈ d.member.overrides, r.roster.contains p = true →
        ∀ q ∈ (σ.enter s).path, Relation.TransGen r.Overrides q p := by
      intro p hmem hin
      have hstep : r.Overrides s p := ⟨d, hd, hmem, hin⟩
      exact hstep.below habove
    -- The member itself is on the path meanwhile, so nothing below settles it.
    obtain ⟨-, us, hus⟩ := hq henter hbelow τ (.refl τ)
    have hkept : τ.KeptBy (r.close d os τ) := by
      refine keptBy_close ?_
      rw [Roster.symbol_of_find? hd]
      exact hus.unsettled henter s (hus.path ▸ List.mem_cons_self)
    obtain ⟨rfl, vs, hvs⟩ := hq henter hbelow ω (hkept.trans hω)
    refine ⟨fun _ => ?_, _, hvs.close hs hd hp ⟨σ.path, ?_, ?_⟩⟩
    · have hself : s = d.member.symbol := (Roster.symbol_of_find? hd).symm
      rw [if_neg hp, hω s _ ((settled?_close ..).trans (if_pos hself)), Option.join_some]
    all_goals obtain rfl := Roster.symbol_of_find? hd
    · exact habove
    · rfl
  case nil => exact fun σ _ _ ω _ => ⟨rfl, [], .of_eq rfl rfl rfl⟩
  case own =>
    intro p ps σ v τ os υ hin hp hq hσ habove ω hω
    have hone := hp hσ (habove p List.mem_cons_self hin)
    obtain ⟨-, us, hus⟩ := hone τ (.refl τ)
    have hrest := hq (hus.unsettled hσ) fun p' hp' hin' => by
      rw [hus.path]
      exact habove p' (List.mem_cons_of_mem _ hp') hin'
    obtain ⟨-, ts, hts⟩ := hrest υ (.refl υ)
    obtain ⟨hv, vs, hvs⟩ := hone ω (hts.keptBy.trans hω)
    obtain ⟨rfl, ws, hws⟩ := hrest ω hω
    refine ⟨?_, _, hvs.trans hws⟩
    rw [hus.path, hv hin, seenObligations_cons, seen, if_pos hin]
    split <;> rfl
  case beyond =>
    intro p ps σ os υ hin hq hσ habove ω hω
    have hfollow := Ledger.beyond r (r.Judged ω) p σ
    obtain ⟨rfl, vs, hvs⟩ := hq (hfollow.unsettled hσ)
      (fun p' hp' hin' => hfollow.path ▸ habove p' (List.mem_cons_of_mem _ hp') hin') ω hω
    refine ⟨?_, _, hfollow.trans hvs⟩
    rw [hfollow.path, seenObligations_cons, seen, if_neg (by simp [hin]), Outside.tagOf_fst]
    rfl

/-- When all members have had their turn, each of them was judged by the tags that it ended with. -/
theorem settleAll_judged (r : Resolver) :
    r.Progress (r.Judged r.settleAll.2) r.roster.symbols r.settleAll := by
  have hall : ∀ ss : List Symbol, (∀ s ∈ ss, s ∈ r.roster.symbols) →
      ∀ ω, (ss.foldl r.settleNext (.empty, {})).2.KeptBy ω →
        r.Progress (r.Judged ω) ss (ss.foldl r.settleNext (.empty, {})) := by
    intro ss
    induction ss using List.reverseRecOn with
    | nil => exact fun _ ω _ => ⟨⟨[], .of_eq rfl rfl rfl⟩, by simp, fun s => by simp⟩
    | append_singleton ss s ih =>
      intro hmem ω hω
      rw [List.foldl_append] at hω ⊢
      have hss := ih fun t ht => hmem t (List.mem_append_left _ ht)
      set state := ss.foldl r.settleNext (.empty, {}) with hstate
      have hpath := (hss state.2 (.refl _)).path
      obtain ⟨v, τ, he⟩ := settle_depth_isSome (r := r) s state.2
      have hnext : [s].foldl r.settleNext state = (v.elim state.1 (state.1.putNew s), τ) :=
        settleNext_eq hpath he
      obtain ⟨us, hus⟩ := settle_ledger he
      have hτ : τ.KeptBy ω := by rwa [hnext] at hω
      refine (hss ω (hus.keptBy.trans hτ)).next (hmem s (by simp)) fun v' τ' he' => ?_
      obtain ⟨rfl, rfl⟩ : v' = v ∧ τ' = τ := by simpa [he] using he'.symm
      exact (settle_judged he (by simp [Search.Unsettled, hpath]) (by simp [hpath]) hτ).2
  exact hall r.roster.symbols (fun _ h => h) _ (.refl _)

/-- The verdict on a member: it was reached from below members that lead down to it, its obligations
are the final ones as seen from there, its tag is the one that it ends with, and the obligations that
it breaks are reported. -/
theorem exists_judged {s : Symbol} {d : Declaration} (hd : r.roster.find? s = some d) :
    ∃ above os, (∀ q ∈ above, Relation.TransGen r.Overrides q s) ∧
      os = r.seenObligations r.settleAll.2 (s :: above) d.member.overrides ∧
      r.settleAll.1.get? s = d.declaredTag os ∧
      ∀ f ∈ d.conflicts r.policy os, f ∈ r.settleAll.2.findings := by
  have hprogress := r.settleAll_judged
  obtain ⟨vs, hvs⟩ := hprogress.ledger
  have hs : s ∈ r.roster.symbols := Roster.mem_symbols_iff.2 ⟨d, hd⟩
  obtain ⟨tag, htag⟩ := hprogress.settled s hs
  rcases hvs.settled?_cases htag with hempty | ⟨v, hv, rfl, rfl⟩
  · simp [Search.settled?] at hempty
  · obtain ⟨hfind, above, habove, hos⟩ := hvs.sound v hv
    obtain rfl : v.declaration = d := Option.some.inj (hfind.symm.trans hd)
    refine ⟨above, v.obligations, habove, hos, ?_, fun f hf => ?_⟩
    · rw [hprogress.tags, if_pos hs, htag, Option.join_some]
      rfl
    · rw [hvs.findings]
      exact List.mem_append_right _ (List.mem_flatMap.2 ⟨v, hv, hf⟩)

/-- A member that the search does not stand on is seen with the tag that it ends with. -/
theorem seen_of_member {p : Symbol} {path : List Symbol} (hin : r.roster.contains p = true)
    (hp : p ∉ path) :
    r.seen r.settleAll.2 path p = (r.settleAll.1.get? p).map (·.tag) := by
  rw [seen, if_pos hin, if_neg hp, r.settleAll_judged.tags, if_pos (Roster.contains_iff.1 hin)]

theorem mem_findings_of_broken {m p : Symbol} {d : Declaration} {t t' : SourcedTag}
    (hd : r.roster.find? m = some d) (hm : r.settleAll.1.get? m = some t)
    (hwaives : d.waives = false) (hp : p ∈ d.member.overrides)
    (hin : r.roster.contains p = true) (ht' : r.settleAll.1.get? p = some t')
    (hbroken : r.policy.permits t'.tag t.tag = false)
    (hloop : ¬ Relation.TransGen r.Overrides p m) :
    d.conflict t.tag ⟨t'.tag, p⟩ ∈ r.settleAll.2.findings := by
  obtain ⟨above, os, habove, hos, htag, hreported⟩ := r.exists_judged hd
  -- The search does not stand on the overridden member: that would close a loop.
  have hpath : p ∉ m :: above := by
    intro hmem
    rcases List.mem_cons.1 hmem with rfl | hmem
    · exact hloop (.single ⟨d, hd, hp, hin⟩)
    · exact hloop (habove p hmem)
  have hseen : r.seen r.settleAll.2 (m :: above) p = some t'.tag := by
    rw [seen_of_member hin hpath, ht', Option.map_some]
  have hobligation : ⟨t'.tag, p⟩ ∈ os := by
    rw [hos]
    exact List.mem_flatMap.2 ⟨p, hp, by simp [hseen, Obligation.ofTag]⟩
  exact hreported _
    (Declaration.conflict_mem_conflicts (htag.symm.trans hm) hwaives hobligation hbroken)

end Resolver

namespace SourceUnit

variable {u : SourceUnit} {o : Outside} {policy : CallPolicy}

theorem overrides_resolver :
    (Resolver.mk policy (u.roster o.exclusions) o).Overrides = u.Overrides o.exclusions := by
  funext m p
  simp only [Resolver.Overrides, Overrides, Roster.contains, find?_roster]

/-- Whenever an overridden member of the file has a tag that may not call the tag of the member that
overrides it, that is reported, unless the latter waives it or is itself overridden by the former. -/
theorem broken_obligation_reported (u : SourceUnit) (policy : CallPolicy) (o : Outside)
    (m p : Symbol) (d : Declaration) (t t' : SourcedTag) (hd : u.member? o.exclusions m = some d)
    (hm : (u.declaredTags policy o).tags.get? m = some t) (hwaives : d.waives = false)
    (hp : p ∈ d.member.overrides) (hin : (u.member? o.exclusions p).isSome)
    (ht' : (u.declaredTags policy o).tags.get? p = some t')
    (hbroken : policy.permits t'.tag t.tag = false)
    (hloop : ¬ Relation.TransGen (u.Overrides o.exclusions) p m) :
    ⟨.conflictingOverride m p t.tag t'.tag, d.member.span⟩ ∈
      (u.declaredTags policy o).findings := by
  have hfind : (u.roster o.exclusions).find? m = some d := (find?_roster o.exclusions u m).trans hd
  have hcontains : (u.roster o.exclusions).contains p = true := by
    rwa [Roster.contains, find?_roster]
  have hreported := Resolver.mem_findings_of_broken (r := ⟨policy, u.roster o.exclusions, o⟩)
    hfind hm hwaives hp hcontains ht' hbroken (overrides_resolver ▸ hloop)
  rwa [Declaration.conflict, Roster.symbol_of_find? hfind] at hreported

/-- A task and a window that claim to override each other, and a panel that overrides the task. -/
def ring : SourceUnit where
  path := "Ring.java"
  types := [
    { name := "app.Task", members := [
      { symbol := ⟨"app.Task#run()"⟩, kind := .method, tag := some { tag := .worker },
        overrides := [⟨"app.Window#run()"⟩], span := ⟨10, 20⟩ }] },
    { name := "app.Window", members := [
      { symbol := ⟨"app.Window#run()"⟩, kind := .method, tag := some { tag := .swing },
        overrides := [⟨"app.Task#run()"⟩], span := ⟨30, 40⟩ }] },
    { name := "app.Panel", members := [
      { symbol := ⟨"app.Panel#run()"⟩, kind := .method, tag := some { tag := .fx },
        overrides := [⟨"app.Task#run()"⟩], span := ⟨50, 60⟩ }] }]

/-- The window overrides a method that runs in the background, and nothing is said about it: the task
is met first, and the window is settled while the search still stands on the task. -/
theorem broken_obligation_unreported_ring :
    ∃ d, ring.member? {} ⟨"app.Window#run()"⟩ = some d ∧ d.waives = false ∧
      ⟨"app.Task#run()"⟩ ∈ d.member.overrides ∧ (ring.member? {} ⟨"app.Task#run()"⟩).isSome ∧
      (ring.declaredTags .standard ⟨{}, {}, {}⟩).tags.get? ⟨"app.Window#run()"⟩ =
        some ⟨.swing, .explicit⟩ ∧
      (ring.declaredTags .standard ⟨{}, {}, {}⟩).tags.get? ⟨"app.Task#run()"⟩ =
        some ⟨.worker, .explicit⟩ ∧
      CallPolicy.standard.permits .worker .swing = false ∧
      ⟨.conflictingOverride ⟨"app.Window#run()"⟩ ⟨"app.Task#run()"⟩ .swing .worker,
        d.member.span⟩ ∉ (ring.declaredTags .standard ⟨{}, {}, {}⟩).findings :=
  ⟨_, rfl, rfl, List.mem_cons_self, rfl, by decide, by decide, by decide, by decide⟩

/-- The panel stands beside the loop, and its obligation to the task is reported. -/
theorem broken_obligation_reported_panel :
    ¬ Relation.TransGen (ring.Overrides {}) ⟨"app.Task#run()"⟩ ⟨"app.Panel#run()"⟩ ∧
      ⟨.conflictingOverride ⟨"app.Panel#run()"⟩ ⟨"app.Task#run()"⟩ .fx .worker, ⟨50, 60⟩⟩ ∈
        (ring.declaredTags .standard ⟨{}, {}, {}⟩).findings := by
  -- From the task overrides lead to the window and back, and nowhere else.
  have hclosed : ∀ s ∈ [(⟨"app.Task#run()"⟩ : Symbol), ⟨"app.Window#run()"⟩],
      ∀ p ∈ (ring.member? {} s).elim [] (·.member.overrides),
        p ∈ [(⟨"app.Task#run()"⟩ : Symbol), ⟨"app.Window#run()"⟩] := by decide
  have hreach : ∀ s, Relation.TransGen (ring.Overrides {}) ⟨"app.Task#run()"⟩ s →
      s ∈ [(⟨"app.Task#run()"⟩ : Symbol), ⟨"app.Window#run()"⟩] := by
    intro s hs
    induction hs with
    | single hstep =>
      obtain ⟨d, hd, hp, -⟩ := hstep
      exact hclosed _ List.mem_cons_self _ (by rwa [hd])
    | tail _ hstep ih =>
      obtain ⟨d, hd, hp, -⟩ := hstep
      exact hclosed _ ih _ (by rwa [hd])
  have hloop : ¬ Relation.TransGen (ring.Overrides {}) ⟨"app.Task#run()"⟩ ⟨"app.Panel#run()"⟩ :=
    fun h => absurd (hreach _ h) (by decide)
  exact ⟨hloop, broken_obligation_reported ring .standard ⟨{}, {}, {}⟩ _ _ _ ⟨.fx, .explicit⟩
    ⟨.worker, .explicit⟩ rfl (by decide) rfl List.mem_cons_self rfl (by decide) (by decide) hloop⟩

end SourceUnit

end ThreadAffinity
