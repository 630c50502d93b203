import ThreadAffinity.Proofs.Obligations
import ThreadAffinity.Proofs.PartSearch

/-!
Where a declared tag comes from.

A search beyond the file that finds a tag has come to the place where it is written down: one host
declaration after another led there, each of which the host was asked about
(`Outside.exists_source`). In the file, a member's tag follows from its own annotations and from the
tags of what it overrides, and the members that it takes a tag from were settled before it. So what
holds of each member whenever it holds of those that it takes its tag from, holds of all of them,
whatever loops the overrides form (`Resolver.settled_induct`).

Which symbols the host is asked about depends on what the search stands on and what it has settled.
`Resolver.Asks` therefore reads it off the states that the search of the file gets to. -/

namespace ThreadAffinity

namespace Outside

variable {o : Outside}

/-- Whether the host declares `s` and has it override `p`. -/
def HostOverrides (o : Outside) (s p : Symbol) : Prop :=
  ∃ e, o.host.get? s = some e ∧ p ∈ e.overrides

/-- The symbols that a search for the given ones looks at, from a path. It takes one after the other
for as long as it has found nothing, and each with what it overrides in turn. -/
inductive Visits (o : Outside) : List Symbol → List Symbol → Symbol → Prop
  | here {path ps : List Symbol} {p : Symbol} : Visits o path (p :: ps) p
  | next {path ps : List Symbol} {p s : Symbol} :
    o.tagFrom path p = none → Visits o path ps s → Visits o path (p :: ps) s
  | deeper {path ps qs : List Symbol} {p s : Symbol} :
    o.look p = .onwards qs → p ∉ path → Visits o (p :: path) qs s → Visits o path (p :: ps) s

/-- Whether a search asks the host about a symbol: it comes to the symbol, which is neither left out
nor in the store with a tag that an annotation stands behind. -/
def Asks (o : Outside) (path ps : List Symbol) (s : Symbol) : Prop :=
  o.Visits path ps s ∧ o.exclusions.covers s.owner = false ∧ o.publishedTag? s = none

/-- Whether the store has the tag for the symbol, and an annotation stands behind it. -/
def Published (o : Outside) (s : Symbol) (t : Tag) : Prop :=
  ∃ e, o.store.get? s = some e ∧ e.origin.isDeclared = true ∧ e.tag = t

/-- Whether the host declares the symbol with the tag. -/
def HostTagged (o : Outside) (s : Symbol) (t : Tag) : Prop :=
  ∃ e, o.host.get? s = some e ∧ e.tag = some t

theorem published_of_publishedTag? {s : Symbol} {t : Tag} (h : o.publishedTag? s = some t) :
    o.Published s t := by
  rw [publishedTag?_eq] at h
  obtain ⟨e, he, ht⟩ := Option.map_eq_some_iff.1 h
  obtain ⟨hget, horigin⟩ := Option.filter_eq_some_iff.1 he
  exact ⟨e, hget, horigin, ht⟩

/-- A tag that ends a search is a published one, or the host was asked and knows it. -/
theorem cases_of_look_found {s : Symbol} {t : Tag} (h : o.look s = .found (some t)) :
    o.Published s t ∨
      o.exclusions.covers s.owner = false ∧ o.publishedTag? s = none ∧ o.HostTagged s t := by
  unfold look at h
  split at h
  case isTrue => cases h
  case isFalse hcov =>
    split at h
    case h_1 tag _ hpub =>
      cases h
      exact Or.inl (published_of_publishedTag? hpub)
    case h_3 tag ps hpub hhost =>
      cases h
      exact Or.inr ⟨by simpa using hcov, hpub, _, hhost, rfl⟩
    all_goals cases h

/-- A search goes on from a symbol only after it has asked the host. -/
theorem asked_of_look_onwards {s : Symbol} {qs : List Symbol} (h : o.look s = .onwards qs) :
    o.exclusions.covers s.owner = false ∧ o.publishedTag? s = none := by
  unfold look at h
  split at h
  case isTrue => cases h
  case isFalse hcov =>
    split at h
    case h_4 hpub _ => exact ⟨by simpa using hcov, hpub⟩
    all_goals cases h

theorem Visits.skip {path ps qs : List Symbol} {s : Symbol}
    (hskip : ∀ p ∈ ps, o.tagFrom path p = none) (h : o.Visits path qs s) :
    o.Visits path (ps ++ qs) s := by
  induction ps with
  | nil => exact h
  | cons p ps ih =>
    exact .next (hskip p List.mem_cons_self) (ih fun q hq => hskip q (List.mem_cons_of_mem _ hq))

/-- A tag that a search finds is published, or the host's, for a symbol that host declarations lead
to; the search has asked the host about each of them. -/
theorem exists_source (path ps : List Symbol) {t : Tag}
    (h : ps.findSome? (o.tagFrom path) = some t) :
    ∃ p ∈ ps, ∃ q,
      Relation.ReflTransGen (fun s s' => o.Asks path ps s ∧ o.HostOverrides s s') p q ∧
        (o.Published q t ∨ o.Asks path ps q ∧ o.HostTagged q t) := by
  obtain ⟨l₁, a, l₂, rfl, hat, hskip⟩ := List.findSome?_eq_some_iff.1 h
  have hvisit : o.Visits path (l₁ ++ a :: l₂) a := .skip hskip .here
  refine ⟨a, by simp, ?_⟩
  cases hl : o.look a with
  | found tag =>
    rw [tagFrom_found hl] at hat
    subst hat
    refine ⟨a, .refl, ?_⟩
    rcases cases_of_look_found hl with hpub | ⟨hcov, hpub, htag⟩
    · exact Or.inl hpub
    · exact Or.inr ⟨⟨hvisit, hcov, hpub⟩, htag⟩
  | onwards qs =>
    rw [tagFrom_onwards hl] at hat
    split at hat
    case isTrue => cases hat
    case isFalse hp =>
      have hlt := offPath_host_lt hl hp
      obtain ⟨p, hpq, q, hchain, hend⟩ := exists_source (a :: path) qs hat
      have hasks : ∀ s, o.Asks (a :: path) qs s → o.Asks path (l₁ ++ a :: l₂) s :=
        fun s hs => ⟨.skip hskip (.deeper hl hp hs.1), hs.2⟩
      have hfirst : o.Asks path (l₁ ++ a :: l₂) a ∧ o.HostOverrides a p :=
        ⟨⟨hvisit, asked_of_look_onwards hl⟩, _, host_of_look hl, hpq⟩
      have hchain' : Relation.ReflTransGen
          (fun s s' => o.Asks path (l₁ ++ a :: l₂) s ∧ o.HostOverrides s s') p q :=
        Relation.ReflTransGen.mono (fun s _ hs => ⟨hasks s hs.1, hs.2⟩) p q hchain
      refine ⟨q, .head hfirst hchain', ?_⟩
      · exact hend.imp id fun ⟨hs, htag⟩ => ⟨hasks q hs, htag⟩
termination_by offPath o.host.keys path

/-- Whether `p` has the tag beyond the file: it is published, or the host's, for a symbol that host
declarations lead to from `p`. -/
def Offers (o : Outside) (p : Symbol) (t : Tag) : Prop :=
  ∃ q, Relation.ReflTransGen o.HostOverrides p q ∧ (o.Published q t ∨ o.HostTagged q t)

/-- A search finds no tag but those that are offered. -/
theorem offers_of_tagFrom {path : List Symbol} {p : Symbol} {t : Tag}
    (h : o.tagFrom path p = some t) : o.Offers p t := by
  obtain ⟨s, hs, q, hchain, hend⟩ := exists_source path [p] (by simpa using h)
  obtain rfl := List.mem_singleton.1 hs
  exact ⟨q, Relation.ReflTransGen.mono (fun _ _ hstep => hstep.2) s q hchain, hend.imp id (·.2)⟩

end Outside

/-- Whether every member that is settled with a tag satisfies `G`. -/
def Search.Every (G : Symbol → SourcedTag → Prop) (σ : Search) : Prop :=
  ∀ s t, σ.settled? s = some (some t) → G s t

namespace Resolver

variable {r : Resolver}

/-! ### Where the search gets to -/

mutual

/-- The states in which the search of a file comes to a symbol, in order to settle it. -/
inductive Comes (r : Resolver) : Symbol → Search → Prop
  | turn {ss ss' : List Symbol} {s : Symbol} : r.roster.symbols = ss ++ s :: ss' →
    Comes r s (ss.foldl r.settleNext (.empty, {})).2
  | own {ps : List Symbol} {p : Symbol} {σ : Search} :
    Faces r (p :: ps) σ → r.roster.contains p = true → Comes r p σ

/-- The states in which the search still has to find the tags of the symbols that a member
overrides. -/
inductive Faces (r : Resolver) : List Symbol → Search → Prop
  | all {s : Symbol} {d : Declaration} {σ : Search} : Comes r s σ → σ.settled? s = none →
    r.roster.find? s = some d → s ∉ σ.path → Faces r d.member.overrides (σ.enter s)
  | rest {n : Nat} {ps : List Symbol} {p : Symbol} {σ τ : Search} {v : Option Tag} :
    Faces r (p :: ps) σ → r.overriddenTag (r.settle n) p σ = some (v, τ) → Faces r ps τ

end

/-- Whether the search of a file asks the host about a symbol. -/
def Asks (r : Resolver) (s : Symbol) : Prop :=
  ∃ p ps σ, r.Faces (p :: ps) σ ∧ r.roster.contains p = false ∧ r.outside.Asks σ.path [p] s

/-- Where an obligation comes from: from a member of the file that ends up with its tag and
satisfies `G`, or from a search beyond the file. -/
def Owed (r : Resolver) (G : Symbol → SourcedTag → Prop) (ps : List Symbol) (o : Obligation) :
    Prop :=
  o.overridden ∈ ps ∧
    if r.roster.contains o.overridden then
      ∃ t, r.settleAll.1.get? o.overridden = some t ∧ t.tag = o.tag ∧ G o.overridden t
    else
      ∃ qs σ, r.Faces (o.overridden :: qs) σ ∧ r.outside.tagFrom σ.path o.overridden = some o.tag

theorem Owed.mono {G : Symbol → SourcedTag → Prop} {ps qs : List Symbol} {o : Obligation}
    (h : r.Owed G ps o) (hsub : ps ⊆ qs) : r.Owed G qs o := ⟨hsub h.1, h.2⟩

theorem Owed.own {G : Symbol → SourcedTag → Prop} {ps : List Symbol} {p : Symbol}
    {v : Option SourcedTag} (hin : r.roster.contains p = true)
    (hv : ∀ t, v = some t → r.settleAll.1.get? p = some t ∧ G p t) {o : Obligation}
    (ho : o ∈ Obligation.ofTag p (v.map (·.tag))) : r.Owed G (p :: ps) o := by
  obtain ⟨_, hmap, rfl⟩ := Option.map_eq_some_iff.1 (Option.mem_toList.1 ho)
  obtain ⟨t, ht, rfl⟩ := Option.map_eq_some_iff.1 hmap
  obtain ⟨hget, hG⟩ := hv t ht
  exact ⟨List.mem_cons_self, by simpa [hin] using ⟨t, hget, rfl, hG⟩⟩

theorem Owed.beyond {G : Symbol → SourcedTag → Prop} {ps : List Symbol} {p : Symbol} {σ : Search}
    (hfaces : r.Faces (p :: ps) σ) (hout : r.roster.contains p = false) {o : Obligation}
    (ho : o ∈ Obligation.ofTag p (r.outside.tagFrom σ.path p)) : r.Owed G (p :: ps) o := by
  obtain ⟨t, ht, rfl⟩ := Option.map_eq_some_iff.1 (Option.mem_toList.1 ho)
  exact ⟨List.mem_cons_self, by simpa [hout] using ⟨ps, σ, hfaces, ht⟩⟩

/-! ### What one turn preserves, and what all of them do -/

/-- What is settled in the end is recorded. -/
theorem get?_of_settled? {s : Symbol} {t : SourcedTag}
    (h : r.settleAll.2.settled? s = some (some t)) : r.settleAll.1.get? s = some t := by
  rw [settleAll_settled?] at h
  split at h
  case isTrue => exact Option.some.inj h
  case isFalse => cases h

/-- What every member's turn preserves, given that what is settled stays settled, holds in the
end. -/
theorem settleAll_induct {I : Search → Prop} (start : I {})
    (turn : ∀ s σ v τ, r.Comes s σ → σ.path = [] → r.settle r.depth s σ = some (v, τ) →
      τ.KeptBy r.settleAll.2 → I σ → I τ) : I r.settleAll.2 := by
  have hall : ∀ ss ss' : List Symbol, r.roster.symbols = ss ++ ss' →
      r.Progress (fun _ => True) ss (ss.foldl r.settleNext (.empty, {})) ∧
        ((ss.foldl r.settleNext (.empty, {})).2.KeptBy r.settleAll.2 →
          I (ss.foldl r.settleNext (.empty, {})).2) := by
    intro ss
    induction ss using List.reverseRecOn with
    | nil =>
      exact fun _ _ => ⟨⟨⟨[], .of_eq rfl rfl rfl⟩, by simp, fun s => by simp⟩, fun _ => start⟩
    | append_singleton ss s ih =>
      intro ss' hsplit
      rw [List.append_assoc, List.singleton_append] at hsplit
      obtain ⟨hprogress, hI⟩ := ih (s :: ss') hsplit
      rw [List.foldl_append]
      obtain ⟨v, τ, he⟩ := settle_depth_isSome (r := r) s (ss.foldl r.settleNext (.empty, {})).2
      obtain ⟨vs, hvs⟩ := settle_ledger he
      have hnext := settleNext_eq hprogress.path he
      refine ⟨hprogress.next (by simp [hsplit]) fun _ _ => settle_ledger, fun hkept => ?_⟩
      rw [List.foldl_cons, List.foldl_nil, hnext] at hkept ⊢
      exact turn s _ v τ (.turn hsplit) hprogress.path he hkept (hI (hvs.keptBy.trans hkept))
  exact (hall r.roster.symbols [] (List.append_nil _).symm).2 (.refl _)

/-- Whether a member satisfies `G` as soon as the members that it owes its tag to satisfy it. -/
def Hereditary (r : Resolver) (G : Symbol → SourcedTag → Prop) : Prop :=
  ∀ d os t, r.roster.find? d.member.symbol = some d → d.declaredTag os = some t →
    r.settleAll.1.get? d.member.symbol = some t → (∀ o ∈ os, r.Owed G d.member.overrides o) →
      G d.member.symbol t

/-- A run settles members that satisfy `G` only, if `G` is hereditary and all that was settled
before it satisfies `G`. -/
theorem settle_every {G : Symbol → SourcedTag → Prop} (hG : r.Hereditary G) {n : Nat} {s : Symbol}
    {σ τ : Search} {v : Option SourcedTag} (h : r.settle n s σ = some (v, τ)) (hcomes : r.Comes s σ)
    (hun : σ.Unsettled) (hkept : τ.KeptBy r.settleAll.2) (hσ : σ.Every G) : τ.Every G := by
  set ω := r.settleAll.2 with hω
  refine ((settle_run_induct
    (P := fun s σ v τ => (∃ vs, r.Ledger (fun _ => True) vs σ τ) ∧
      (r.Comes s σ → σ.Unsettled → τ.KeptBy ω → σ.Every G →
        τ.Every G ∧ ∀ t, v = some t → r.settleAll.1.get? s = some t ∧ G s t))
    (Q := fun ps σ os τ => (∃ vs, r.Ledger (fun _ => True) vs σ τ) ∧
      (r.Faces ps σ → σ.Unsettled → τ.KeptBy ω → σ.Every G →
        τ.Every G ∧ ∀ o ∈ os, r.Owed G ps o))
    ?known ?foreign ?loop ?body ?nil ?own ?beyond n s σ v τ h).2 hcomes hun hkept hσ).1
  case known =>
    refine fun s σ v hs => ⟨⟨[], .of_eq rfl rfl rfl⟩, fun _ _ hkept hσ => ⟨hσ, ?_⟩⟩
    rintro t rfl
    exact ⟨get?_of_settled? (hkept s _ hs), hσ s t hs⟩
  case foreign => exact fun s σ _ _ => ⟨⟨[], .of_eq rfl rfl rfl⟩, fun _ _ _ hσ => ⟨hσ, by simp⟩⟩
  case loop => exact fun s σ d _ _ _ => ⟨⟨[], .of_eq rfl rfl rfl⟩, fun _ _ _ hσ => ⟨hσ, by simp⟩⟩
  case body =>
    rintro s σ d os τ hs hd hp ⟨⟨vs, hvs⟩, hinner⟩
    refine ⟨⟨_, hvs.close hs hd hp trivial⟩, fun hcomes hun hkept hσ => ?_⟩
    obtain rfl := Roster.symbol_of_find? hd
    -- The member itself is on the path meanwhile, so nothing below settles it.
    have henter : (σ.enter d.member.symbol).Unsettled := List.forall_mem_cons.2 ⟨hs, hun⟩
    have hopen : τ.settled? d.member.symbol = none :=
      hvs.unsettled henter _ (hvs.path ▸ List.mem_cons_self)
    obtain ⟨hτ, hos⟩ :=
      hinner (.all hcomes hs hd hp) henter ((keptBy_close hopen).trans hkept) hσ
    have hself : ∀ t, d.declaredTag os = some t →
        r.settleAll.1.get? d.member.symbol = some t ∧ G d.member.symbol t := by
      intro t ht
      have hget := get?_of_settled? (hkept d.member.symbol (some t)
        ((settled?_close ..).trans (by rw [if_pos rfl, ht])))
      exact ⟨hget, hG d os t hd ht hget hos⟩
    refine ⟨fun s t hst => ?_, hself⟩
    rw [settled?_close] at hst
    split at hst
    case isTrue he => exact he ▸ (hself t (Option.some.inj hst)).2
    case isFalse => exact hτ s t hst
  case nil => exact fun σ => ⟨⟨[], .of_eq rfl rfl rfl⟩, fun _ _ _ hσ => ⟨hσ, by simp⟩⟩
  case own =>
    rintro n p ps σ v τ os υ hin hrun ⟨⟨vs, hvs⟩, hone⟩ ⟨⟨ws, hws⟩, hrest⟩
    refine ⟨⟨_, hvs.trans hws⟩, fun hfaces hun hkept hσ => ?_⟩
    obtain ⟨hτ, hv⟩ := hone (.own hfaces hin) hun (hws.keptBy.trans hkept) hσ
    have hnext : r.Faces ps τ :=
      .rest hfaces (by rw [overriddenTag_own hin, hrun, Option.map_some])
    obtain ⟨hυ, hos⟩ := hrest hnext (hvs.unsettled hun) hkept hτ
    refine ⟨hυ, fun o ho => ?_⟩
    rcases List.mem_append.1 ho with ho | ho
    · exact .own hin hv ho
    · exact (hos o ho).mono (List.subset_cons_self ..)
  case beyond =>
    rintro p ps σ os υ hout ⟨⟨vs, hvs⟩, hrest⟩
    have hfollow := Ledger.beyond r (fun _ => True) p σ
    refine ⟨⟨_, hfollow.trans hvs⟩, fun hfaces hun hkept hσ => ?_⟩
    have hnext : r.Faces ps (σ.follow (r.outside.tagOf p σ.trail).2) :=
      .rest (n := 0) hfaces (overriddenTag_beyond hout σ)
    obtain ⟨hυ, hos⟩ := hrest hnext (hfollow.unsettled hun) hkept hσ
    refine ⟨hυ, fun o ho => ?_⟩
    rcases List.mem_append.1 ho with ho | ho
    · rw [Outside.tagOf_fst] at ho
      exact .beyond hfaces hout ho
    · exact (hos o ho).mono (List.subset_cons_self ..)

/-- Every member that has a tag satisfies what is hereditary. The induction is on the order in which
members are settled: those that a member owes its tag to come before it. -/
theorem settled_induct {G : Symbol → SourcedTag → Prop} (hG : r.Hereditary G) {s : Symbol}
    {t : SourcedTag} (h : r.settleAll.1.get? s = some t) : G s t := by
  have hevery : r.settleAll.2.Every G := by
    refine settleAll_induct (by simp [Search.Every, Search.settled?]) ?_
    exact fun s σ v τ hcomes hpath he hkept hσ =>
      settle_every hG he hcomes (by simp [Search.Unsettled, hpath]) hkept hσ
  refine hevery s t ?_
  rw [settleAll_settled?, if_pos, h]
  by_contra hs
  rw [settleAll_get?_of_notMem hs] at h
  cases h

end Resolver

end ThreadAffinity
