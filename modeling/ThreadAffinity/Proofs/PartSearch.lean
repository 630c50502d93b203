import ThreadAffinity.Proofs.FileSearch

/-!
The search through a part of a file.

A file may be taken apart into types that come first and types that come after them. Where the search
through the whole has dealt with the earlier part, it goes on as the search through the later part
alone would go (`Search.Beside`): the two stand on the same path, settle the same members with the
same tags and report the same broken obligations. What the later part overrides in the earlier one
is settled already in the whole, and lies beyond the file for the part alone; all that it takes is
that the search beyond the file finds the tag that was settled (`Resolver.PartOf`). -/

namespace ThreadAffinity

/-- A state of the search through a part of a file, and one of the search through the whole, which
stood at `base` when it came to the part. -/
structure Search.Beside (base σ σ' : Search) : Prop where
  path : σ'.path = σ.path
  settled : ∀ s, σ'.settled? s = (base.settled? s).or (σ.settled? s)
  findings : σ'.findings = base.findings ++ σ.findings

namespace Search.Beside

variable {base σ σ' : Search}

theorem enter (h : base.Beside σ σ') (s : Symbol) : base.Beside (σ.enter s) (σ'.enter s) :=
  ⟨congrArg (s :: ·) h.path, h.settled, h.findings⟩

theorem note (h : base.Beside σ σ') (e : Event) : base.Beside (σ.note e) (σ'.note e) :=
  ⟨h.path, h.settled, h.findings⟩

theorem follow (h : base.Beside σ σ') {t t' : Trail} (ht : t'.path = t.path) :
    base.Beside (σ.follow t) (σ'.follow t') := ⟨ht, h.settled, h.findings⟩

/-- The search through the whole comes to a part with its path empty. -/
theorem start (h : base.path = []) : base.Beside {} base :=
  ⟨h, fun _ => (Option.or_none ..).symm, (List.append_nil _).symm⟩

theorem settled?_of_fresh (h : base.Beside σ σ') {s : Symbol} (hs : base.settled? s = none) :
    σ'.settled? s = σ.settled? s := by rw [h.settled, hs, Option.none_or]

end Search.Beside

namespace Resolver

variable {part whole : Resolver} {base σ σ' : Search}

/-- Whether the search through the whole sees the members of a part as the search through the part
alone does, and what these override as well: beyond the file both find the same, and what the whole
knows from before is found with its tag beyond the part. -/
structure PartOf (part whole : Resolver) (known : Symbol → Option (Option SourcedTag)) : Prop where
  policy : whole.policy = part.policy
  find? : ∀ s d, part.roster.find? s = some d → whole.roster.find? s = some d ∧ known s = none
  earlier : ∀ d ∈ part.roster.declarations, ∀ p ∈ d.member.overrides,
    part.roster.contains p = false → whole.roster.contains p = true →
      ∃ tag, known p = some tag ∧ ∀ path, part.outside.tagFrom path p = tag.map (·.tag)
  beyond : ∀ d ∈ part.roster.declarations, ∀ p ∈ d.member.overrides,
    part.roster.contains p = false → whole.roster.contains p = false →
      ∀ path, part.outside.tagFrom path p = whole.outside.tagFrom path p

theorem settle_settled {r : Resolver} {n : Nat} {s : Symbol} {v v' : Option SourcedTag}
    (h : r.settle n s σ = some (v, σ')) (hs : σ.settled? s = some v') : v = v' ∧ σ' = σ := by
  cases n with
  | zero => simp [settle] at h
  | succ n =>
    rcases settle_cases h with ⟨hs', rfl⟩ | ⟨hs', -⟩ | ⟨_, hs', -⟩ | ⟨_, _, _, hs', -⟩
    · exact ⟨Option.some.inj (hs'.symm.trans hs), rfl⟩
    all_goals simp [hs] at hs'

/-- A member that is not settled closes a loop or is settled now. -/
theorem settle_unsettled {r : Resolver} {n : Nat} {s : Symbol} {d : Declaration}
    {v : Option SourcedTag} (h : r.settle n s σ = some (v, σ')) (hs : σ.settled? s = none)
    (hd : r.roster.find? s = some d) :
    (s ∈ σ.path ∧ v = none ∧ σ' = σ.note (.overrideLoop s)) ∨
    (s ∉ σ.path ∧ ∃ m os τ,
      obligations (r.overriddenTag (r.settle m)) d.member.overrides (σ.enter s) = some (os, τ) ∧
        v = d.declaredTag os ∧ σ' = r.close d os τ) := by
  cases n with
  | zero => simp [settle] at h
  | succ n =>
    rcases settle_cases h with ⟨hs', -⟩ | ⟨-, hd', -⟩ | ⟨_, -, -, hpath, hv, hσ⟩ |
      ⟨d', os, τ, -, hd', hpath, hos, hv, hσ⟩
    · simp [hs] at hs'
    · simp [hd] at hd'
    · exact Or.inl ⟨hpath, hv, hσ⟩
    · obtain rfl := Option.some.inj (hd.symm.trans hd')
      exact Or.inr ⟨hpath, n, os, τ, hos, hv, hσ⟩

theorem settle_of_overriddenTag {r : Resolver}
    {settle : Symbol → Search → Option (Option SourcedTag × Search)} {p : Symbol}
    {found : Option Tag} (hp : r.roster.contains p = true)
    (h : r.overriddenTag settle p σ = some (found, σ')) :
    ∃ v, settle p σ = some (v, σ') ∧ v.map (·.tag) = found := by
  rw [overriddenTag_own hp] at h
  obtain ⟨⟨v, τ⟩, hsettle, heq⟩ := Option.map_eq_some_iff.1 h
  obtain ⟨hfound, rfl⟩ := Prod.mk.inj heq
  exact ⟨v, hsettle, hfound⟩

theorem beside_close (h : base.Beside σ σ') (hpolicy : whole.policy = part.policy) {d : Declaration}
    (hd : base.settled? d.member.symbol = none) (os : List Obligation) :
    base.Beside (part.close d os σ) (whole.close d os σ') where
  path := congrArg (·.erase d.member.symbol) h.path
  settled s := by
    rw [settled?_close, settled?_close, h.settled]
    split
    case isTrue hs => rw [hs, hd, Option.none_or]
    case isFalse => rfl
  findings := by
    change σ'.findings ++ d.conflicts whole.policy os =
      base.findings ++ (σ.findings ++ d.conflicts part.policy os)
    rw [h.findings, hpolicy, List.append_assoc]

/-- An overridden member beyond the part is one that the whole has settled earlier, or it is beyond the
file. Either way the whole finds the tag that the part finds. -/
theorem overriddenTag_beside (hpart : part.PartOf whole base.settled?) {d : Declaration}
    {p : Symbol} (hd : d ∈ part.roster.declarations) (hp : p ∈ d.member.overrides)
    (hout : part.roster.contains p = false) (hside : base.Beside σ σ') {m : Nat}
    {found : Option Tag} {τ : Search}
    (h : whole.overriddenTag (whole.settle m) p σ' = some (found, τ)) :
    found = (part.outside.tagOf p σ.trail).1 ∧
      base.Beside (σ.follow (part.outside.tagOf p σ.trail).2) τ := by
  have hback : (σ.follow (part.outside.tagOf p σ.trail).2).path = σ.path :=
    Outside.tagOf_snd_path p σ.trail
  cases hin : whole.roster.contains p with
  | true =>
    obtain ⟨tag, htag, hfound⟩ := hpart.earlier d hd p hp hout hin
    obtain ⟨w, hsettle, rfl⟩ := settle_of_overriddenTag hin h
    have hmemo : σ'.settled? p = some tag := by rw [hside.settled, htag, Option.some_or]
    obtain ⟨rfl, rfl⟩ := settle_settled hsettle hmemo
    refine ⟨?_, hside.path.trans hback.symm, hside.settled, hside.findings⟩
    rw [Outside.tagOf_fst, hfound]
  | false =>
    rw [overriddenTag_beyond hin] at h
    obtain ⟨rfl, rfl⟩ : (whole.outside.tagOf p σ'.trail).1 = found ∧
        σ'.follow (whole.outside.tagOf p σ'.trail).2 = τ := by simpa using h
    refine ⟨?_, hside.follow ((Outside.tagOf_snd_path p σ'.trail).trans
      (hside.path.trans hback.symm))⟩
    have hpath : σ'.trail.path = σ.trail.path := hside.path
    rw [Outside.tagOf_fst, Outside.tagOf_fst, hpath, hpart.beyond d hd p hp hout hin]

/-- The search through the whole settles a member of the part as the search through the part does,
whatever depths the two go to. -/
theorem settle_beside (hpart : part.PartOf whole base.settled?) {n m : Nat} {s : Symbol}
    {τ τ' : Search} {v v' : Option SourcedTag} (h : part.settle n s σ = some (v, τ))
    (hs : part.roster.contains s = true) (hside : base.Beside σ σ')
    (h' : whole.settle m s σ' = some (v', τ')) : v' = v ∧ base.Beside τ τ' := by
  revert m σ' τ' v' hs
  refine settle_induct
    (P := fun s σ v τ => ∀ {m : Nat} {σ' τ' : Search} {v' : Option SourcedTag},
      part.roster.contains s = true → base.Beside σ σ' →
        whole.settle m s σ' = some (v', τ') → v' = v ∧ base.Beside τ τ')
    (Q := fun ps σ os τ => ∀ {m : Nat} {σ' τ' : Search} {os' : List Obligation},
      (∃ d ∈ part.roster.declarations, ps ⊆ d.member.overrides) → base.Beside σ σ' →
        obligations (whole.overriddenTag (whole.settle m)) ps σ' = some (os', τ') →
          os' = os ∧ base.Beside τ τ')
    ?known ?foreign ?loop ?body ?nil ?own ?beyond n s σ v τ h
  case known =>
    intro s σ v hv m σ' τ' v' hs hside h'
    obtain ⟨d, hd⟩ := Option.isSome_iff_exists.1 hs
    have hv' : σ'.settled? s = some v :=
      (hside.settled?_of_fresh (hpart.find? s d hd).2).trans hv
    obtain ⟨rfl, rfl⟩ := settle_settled h' hv'
    exact ⟨rfl, hside⟩
  case foreign =>
    intro s σ _ hnone m σ' τ' v' hs
    simp [Roster.contains, hnone] at hs
  case loop =>
    intro s σ d hun hd hpath m σ' τ' v' hs hside h'
    obtain ⟨hd', hfresh⟩ := hpart.find? s d hd
    have hun' : σ'.settled? s = none := (hside.settled?_of_fresh hfresh).trans hun
    rcases settle_unsettled h' hun' hd' with ⟨-, rfl, rfl⟩ | ⟨hoff, -⟩
    · exact ⟨rfl, hside.note _⟩
    · exact absurd (hside.path ▸ hpath) hoff
  case body =>
    intro s σ d os τ hun hd hoff hq m σ' τ' v' hs hside h'
    obtain ⟨hd', hfresh⟩ := hpart.find? s d hd
    have hun' : σ'.settled? s = none := (hside.settled?_of_fresh hfresh).trans hun
    rcases settle_unsettled h' hun' hd' with ⟨hpath, -⟩ | ⟨-, k, os', υ, hos, rfl, rfl⟩
    · exact absurd (hside.path ▸ hpath) hoff
    · obtain rfl := Roster.symbol_of_find? hd
      obtain ⟨rfl, hinner⟩ :=
        hq ⟨d, Roster.mem_of_find? hd, List.Subset.refl _⟩ (hside.enter _) hos
      exact ⟨rfl, beside_close hinner hpart.policy hfresh _⟩
  case nil =>
    intro σ m σ' τ' os' _ hside h'
    obtain ⟨rfl, rfl⟩ : [] = os' ∧ σ' = τ' := by simpa [Resolver.obligations] using h'
    exact ⟨rfl, hside⟩
  case own =>
    intro p ps σ v τ os υ hin hp hq m σ' τ' os' hlisted hside h'
    obtain ⟨d, hd, hsub⟩ := hlisted
    obtain ⟨found, ω, rest, hone, hrest, rfl⟩ := obligations_cons_some.1 h'
    obtain ⟨e, he⟩ := Option.isSome_iff_exists.1 hin
    have hin' : whole.roster.contains p = true := by
      rw [Roster.contains, (hpart.find? p e he).1, Option.isSome_some]
    obtain ⟨w, hsettle, rfl⟩ := settle_of_overriddenTag hin' hone
    obtain ⟨rfl, hmid⟩ := hp hin hside hsettle
    obtain ⟨rfl, hend⟩ := hq ⟨d, hd, (List.cons_subset.1 hsub).2⟩ hmid hrest
    exact ⟨rfl, hend⟩
  case beyond =>
    intro p ps σ os υ hout hq m σ' τ' os' hlisted hside h'
    obtain ⟨d, hd, hsub⟩ := hlisted
    obtain ⟨hmem, hsub⟩ := List.cons_subset.1 hsub
    obtain ⟨found, ω, rest, hone, hrest, rfl⟩ := obligations_cons_some.1 h'
    obtain ⟨rfl, hmid⟩ := overriddenTag_beside hpart hd hmem hout hside hone
    obtain ⟨rfl, hend⟩ := hq ⟨d, hd, hsub⟩ hmid hrest
    exact ⟨rfl, hend⟩

/-! ### All members of a part, one after another -/

theorem settleNext_beside (hpart : part.PartOf whole base.settled?) {s : Symbol}
    (hs : s ∈ part.roster.symbols) {state state' : TagMap × Search}
    (h : base.Beside state.2 state'.2) :
    base.Beside (part.settleNext state s).2 (whole.settleNext state' s).2 := by
  obtain ⟨v, τ, he⟩ := settle_depth_isSome (r := part) s { state.2 with path := [] }
  obtain ⟨v', τ', he'⟩ := settle_depth_isSome (r := whole) s { state'.2 with path := [] }
  have hside : base.Beside { state.2 with path := [] } { state'.2 with path := [] } :=
    ⟨rfl, h.settled, h.findings⟩
  obtain ⟨rfl, hend⟩ := settle_beside hpart he (Roster.contains_iff.2 hs) hside he'
  unfold settleNext
  rw [he, he']
  cases v' <;> exact hend

theorem settleAll_beside (state : TagMap × Search) (hpart : part.PartOf whole state.2.settled?)
    (hpath : state.2.path = []) :
    state.2.Beside part.settleAll.2 (part.roster.symbols.foldl whole.settleNext state).2 := by
  have hall : ∀ ss : List Symbol, ss ⊆ part.roster.symbols → ∀ st st' : TagMap × Search,
      state.2.Beside st.2 st'.2 →
        state.2.Beside (ss.foldl part.settleNext st).2 (ss.foldl whole.settleNext st').2 := by
    intro ss
    induction ss with
    | nil => exact fun _ _ _ h => h
    | cons s ss ih =>
      intro hsub st st' h
      obtain ⟨hs, hsub⟩ := List.cons_subset.1 hsub
      exact ih hsub _ _ (settleNext_beside hpart hs h)
  exact hall _ (List.Subset.refl _) (.empty, {}) state (.start hpath)

/-- In the end the members are settled with their tags, and nothing else is settled. -/
theorem settleAll_settled? (r : Resolver) (s : Symbol) :
    r.settleAll.2.settled? s = if s ∈ r.roster.symbols then some (r.settleAll.1.get? s) else none := by
  have hprogress := r.settleAll_verdicts
  split
  case isTrue hs =>
    obtain ⟨tag, htag⟩ := hprogress.settled s hs
    rw [hprogress.tags, if_pos hs, htag, Option.join_some]
  case isFalse hs =>
    obtain ⟨vs, hvs⟩ := hprogress.ledger
    refine Option.eq_none_iff_forall_ne_some.2 fun tag htag => ?_
    rcases hvs.settled?_cases htag with hempty | ⟨v, hv, rfl, -⟩
    · simp [Search.settled?] at hempty
    · exact hs (Roster.mem_symbols_iff.2 ⟨_, (hvs.sound v hv).1⟩)

theorem settleAll_get?_of_notMem {r : Resolver} {s : Symbol} (hs : s ∉ r.roster.symbols) :
    r.settleAll.1.get? s = none := by
  rw [r.settleAll_verdicts.tags, if_neg hs]

/-- A search through a file that consists of two parts finds what the searches through the parts
find: the tags of the one and of the other, and first the broken obligations of the first part. -/
theorem settleAll_parts {first second whole : Resolver}
    (hsymbols : whole.roster.symbols = first.roster.symbols ++ second.roster.symbols)
    (hfirst : first.PartOf whole fun _ => none)
    (hsecond : second.PartOf whole first.settleAll.2.settled?) :
    (∀ s, whole.settleAll.1.get? s = (first.settleAll.1.get? s).or (second.settleAll.1.get? s)) ∧
      whole.settleAll.2.findings = first.settleAll.2.findings ++ second.settleAll.2.findings := by
  set mid := first.roster.symbols.foldl whole.settleNext (.empty, {}) with hmid
  have hleft : Search.Beside {} first.settleAll.2 mid.2 := settleAll_beside (.empty, {}) hfirst rfl
  have hknown : mid.2.settled? = first.settleAll.2.settled? :=
    funext fun s => hleft.settled?_of_fresh rfl
  have hpath : mid.2.path = [] := hleft.path.trans first.settleAll_verdicts.path
  have hright : mid.2.Beside second.settleAll.2 whole.settleAll.2 := by
    have hrun := settleAll_beside mid (hknown ▸ hsecond) hpath
    rwa [hmid, ← List.foldl_append, ← hsymbols] at hrun
  refine ⟨fun s => ?_, ?_⟩
  · have hsettled := hright.settled s
    rw [hknown] at hsettled
    simp only [settleAll_settled?, hsymbols, List.mem_append] at hsettled
    by_cases h₁ : s ∈ first.roster.symbols
    · have h₂ : s ∉ second.roster.symbols := by
        intro h₂
        obtain ⟨d, hd⟩ := Roster.mem_symbols_iff.1 h₂
        simpa [settleAll_settled?, h₁] using (hsecond.find? s d hd).2
      rw [settleAll_get?_of_notMem h₂, Option.or_none]
      simpa [h₁] using hsettled
    · rw [settleAll_get?_of_notMem h₁, Option.none_or]
      by_cases h₂ : s ∈ second.roster.symbols
      · simpa [h₁, h₂] using hsettled
      · rw [settleAll_get?_of_notMem h₂, settleAll_get?_of_notMem (by simp [hsymbols, h₁, h₂])]
  · rw [hright.findings, hleft.findings, List.nil_append]

end Resolver

end ThreadAffinity
