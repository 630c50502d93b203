import Mathlib.Logic.Relation
import Mathlib.Order.WellFoundedSet
import ThreadAffinity.Proofs.FileSearch

/-!
Declared tags by plain recursion.

When no override chain leads back to where it started, declared tags have a definition without any
search state: `Hierarchy.outsideTag` beyond the file, `Hierarchy.tag` for any symbol and
`Hierarchy.declaredTag` for a member, each by recursion along overrides. The search through a file
computes exactly these tags and reports exactly the obligations that break under them, each once,
although it settles members in the order in which it comes to them and remembers what it has
settled. The invariant is that every settled member has its plain tag and that the path lies strictly
above the symbol in hand, so nothing on it is ever met again. -/

namespace ThreadAffinity

/-- The tag of a declaration whose first overridden member with a tag has this one. -/
def Declaration.resolve (d : Declaration) (inherited : Option Tag) : Option SourcedTag :=
  match d.member.tag, inherited, d.typeTag with
  | some written, _, _ => some ⟨written.tag, .explicit⟩
  | none, some tag, _ => some ⟨tag, .inherited⟩
  | none, none, some tag => some ⟨tag, .typeLevel⟩
  | none, none, none => none

/-- The first obligation comes from the first overridden symbol with a tag. -/
theorem Obligation.head?_flatMap (tag : Symbol → Option Tag) : ∀ ps : List Symbol,
    (ps.flatMap fun p => Obligation.ofTag p (tag p)).head?.map (·.tag) = ps.findSome? tag
  | [] => rfl
  | p :: ps => by
    have ih := head?_flatMap tag ps
    simp only [Obligation.ofTag, List.flatMap_cons] at ih ⊢
    cases h : tag p <;> simp [h, ih]

/-- A relation without loops bottoms out when only finitely many elements stand above others. -/
theorem wellFounded_of_loopless {α : Type} {R : α → α → Prop}
    (h : ∀ a, ¬ Relation.TransGen R a a) {l : List α} (hl : ∀ b a, R b a → a ∈ l) :
    WellFounded R := by
  have : IsStrictOrder α (Relation.TransGen R) :=
    { irrefl := h, trans := fun _ _ _ => Relation.TransGen.trans }
  have hon : {a | a ∈ l}.WellFoundedOn (Relation.TransGen R) := (List.finite_toSet l).wellFoundedOn
  have hin : ∀ a ∈ l, Acc R a := fun a ha =>
    hon.induction (P := Acc R) ha fun a _ ih => ⟨a, fun b hba => by
      by_cases hb : b ∈ l
      · exact ih b hb (.single hba)
      · exact ⟨b, fun c hcb => absurd (hl c b hcb) hb⟩⟩
  exact ⟨fun a => ⟨a, fun b hba => (hin a (hl b a hba)).inv hba⟩⟩

/-- The members of a file, and what lies outside it. -/
structure Hierarchy where
  member? : Symbol → Option Declaration
  outside : Outside

namespace Hierarchy

variable {g : Hierarchy}

/-- What the declarations of a symbol, in the file and with the host, override. -/
def supers (g : Hierarchy) (s : Symbol) : List Symbol :=
  ((g.member? s).elim [] (·.member.overrides)) ++ ((g.outside.host.get? s).elim [] (·.overrides))

/-- Whether `p` is overridden by `s`. -/
def Overridden (g : Hierarchy) (p s : Symbol) : Prop := p ∈ g.supers s

/-- Whether no override chain comes back to where it started. -/
def Acyclic (g : Hierarchy) : Prop := ∀ s, ¬ Relation.TransGen g.Overridden s s

theorem overridden_of_member {s p : Symbol} {d : Declaration} (h : g.member? s = some d)
    (hp : p ∈ d.member.overrides) : g.Overridden p s := by
  simp [Overridden, supers, h, hp]

theorem overridden_of_host {s p : Symbol} {e : HostDecl} (h : g.outside.host.get? s = some e)
    (hp : p ∈ e.overrides) : g.Overridden p s := by
  simp [Overridden, supers, h, hp]

/-- The tag of a symbol outside the file. -/
def outsideTag (g : Hierarchy) (wf : WellFounded g.Overridden) (s : Symbol) : Option Tag :=
  if g.outside.exclusions.covers s.owner then none
  else
    match g.outside.publishedTag? s with
    | some tag => some tag
    | none =>
      match _h : g.outside.host.get? s with
      | none => none
      | some ⟨some tag, _⟩ => some tag
      | some ⟨none, ps⟩ => ps.attach.findSome? fun ⟨p, _hp⟩ => g.outsideTag wf p
termination_by wf.wrap s
decreasing_by exact overridden_of_host _h _hp

/-- The tag of a symbol: that of its declaration in the file, if it has one there. -/
def tag (g : Hierarchy) (wf : WellFounded g.Overridden) (s : Symbol) : Option Tag :=
  match _h : g.member? s with
  | some d =>
    (d.resolve (d.member.overrides.attach.findSome? fun ⟨p, _hp⟩ => g.tag wf p)).map (·.tag)
  | none => g.outsideTag wf s
termination_by wf.wrap s
decreasing_by exact overridden_of_member _h _hp

/-- The declared tag of a member. -/
def declaredTag (g : Hierarchy) (wf : WellFounded g.Overridden) (s : Symbol) : Option SourcedTag :=
  (g.member? s).bind fun d => d.resolve (d.member.overrides.findSome? (g.tag wf))

theorem outsideTag_eq (wf : WellFounded g.Overridden) (s : Symbol) :
    g.outsideTag wf s =
      match g.outside.look s with
      | .found tag => tag
      | .onwards ps => ps.findSome? (g.outsideTag wf) := by
  rw [outsideTag, Outside.look]
  split
  case isTrue => rfl
  case isFalse =>
    cases g.outside.publishedTag? s with
    | some tag => rfl
    | none =>
      dsimp only
      split <;> simp_all

theorem tag_of_member (wf : WellFounded g.Overridden) {s : Symbol} {d : Declaration}
    (h : g.member? s = some d) :
    g.tag wf s = (d.resolve (d.member.overrides.findSome? (g.tag wf))).map (·.tag) := by
  rw [tag]
  split <;> simp_all

theorem tag_of_outside (wf : WellFounded g.Overridden) {s : Symbol} (h : g.member? s = none) :
    g.tag wf s = g.outsideTag wf s := by
  rw [tag]
  split <;> simp_all

theorem declaredTag_of_member (wf : WellFounded g.Overridden) {s : Symbol} {d : Declaration}
    (h : g.member? s = some d) :
    g.declaredTag wf s = d.resolve (d.member.overrides.findSome? (g.tag wf)) := by
  rw [declaredTag, h, Option.bind_some]

theorem declaredTag_map (wf : WellFounded g.Overridden) {s : Symbol} {d : Declaration}
    (h : g.member? s = some d) : (g.declaredTag wf s).map (·.tag) = g.tag wf s := by
  rw [declaredTag_of_member wf h, tag_of_member wf h]

/-- The obligations of a member that overrides the given symbols. -/
def obligations (g : Hierarchy) (wf : WellFounded g.Overridden) (ps : List Symbol) :
    List Obligation := ps.flatMap fun p => Obligation.ofTag p (g.tag wf p)

/-- The findings of a member: one for each position among its overridden symbols whose tag may not
call it, unless its annotation waives them all. -/
def conflicts (g : Hierarchy) (wf : WellFounded g.Overridden) (policy : CallPolicy)
    (d : Declaration) : List Finding :=
  match g.declaredTag wf d.member.symbol with
  | none => []
  | some declared =>
    if d.waives then []
    else
      d.member.overrides.filterMap fun p =>
        match g.tag wf p with
        | none => none
        | some inherited =>
          if policy.permits inherited declared.tag then none
          else some ⟨.conflictingOverride d.member.symbol p declared.tag inherited, d.member.span⟩

theorem head?_obligations (wf : WellFounded g.Overridden) (ps : List Symbol) :
    (g.obligations wf ps).head?.map (·.tag) = ps.findSome? (g.tag wf) :=
  Obligation.head?_flatMap (g.tag wf) ps

theorem declaredTag_obligations (d : Declaration) (os : List Obligation) :
    d.declaredTag os = d.resolve (os.head?.map (·.tag)) := by
  unfold Declaration.declaredTag Declaration.resolve
  rcases d.member.tag with _ | written <;> rcases os with _ | ⟨o, os⟩ <;>
    rcases d.typeTag with _ | tag <;> rfl

theorem declaredTag_eq (wf : WellFounded g.Overridden) {s : Symbol} {d : Declaration}
    (h : g.member? s = some d) :
    d.declaredTag (g.obligations wf d.member.overrides) = g.declaredTag wf s := by
  rw [declaredTag_obligations, head?_obligations, declaredTag_of_member wf h]

theorem conflicts_eq (wf : WellFounded g.Overridden) (policy : CallPolicy) {d : Declaration}
    (h : g.member? d.member.symbol = some d) :
    d.conflicts policy (g.obligations wf d.member.overrides) = g.conflicts wf policy d := by
  unfold Declaration.conflicts conflicts
  rw [declaredTag_eq wf h]
  cases g.declaredTag wf d.member.symbol with
  | none => rfl
  | some declared =>
    dsimp only
    split
    case isTrue => rfl
    case isFalse =>
      generalize d.member.overrides = ps
      induction ps with
      | nil => rfl
      | cons p ps ih =>
        rw [obligations, List.flatMap_cons, ← obligations, List.filter_append, List.map_append, ih,
          List.filterMap_cons]
        cases hp : g.tag wf p with
        | none => rfl
        | some inherited =>
          cases hperm : policy.permits inherited declared.tag <;>
            simp [Obligation.ofTag, CallPolicy.honours, hperm, Declaration.conflict]

/-- A search whose path lies above a symbol finds the symbol's plain tag. -/
theorem tagFrom_eq (h : g.Acyclic) (wf : WellFounded g.Overridden) (s : Symbol) :
    ∀ path : List Symbol, (∀ q ∈ path, Relation.TransGen g.Overridden s q) →
      g.outside.tagFrom path s = g.outsideTag wf s := by
  induction s using wf.induction with
  | _ s ih =>
    intro path habove
    rw [outsideTag_eq]
    cases hl : g.outside.look s with
    | found tag => exact Outside.tagFrom_found hl
    | onwards ps =>
      have hs : s ∉ path := fun hmem => h s (habove s hmem)
      rw [Outside.tagFrom_onwards hl, if_neg hs]
      have hstep : ∀ p ∈ ps, g.Overridden p s := fun p hp =>
        overridden_of_host (Outside.host_of_look hl) hp
      refine findSome?_congr fun p hp => ih p (hstep p hp) _ fun q hq => ?_
      rcases List.mem_cons.1 hq with rfl | hq
      · exact .single (hstep p hp)
      · exact .trans (.single (hstep p hp)) (habove q hq)

/-- An acyclic hierarchy in which finitely many symbols override others bottoms out. -/
theorem Acyclic.wellFounded (h : g.Acyclic) {l : List Symbol}
    (hl : ∀ p s, g.Overridden p s → s ∈ l) : WellFounded g.Overridden :=
  wellFounded_of_loopless h hl

end Hierarchy

/-! ### The search computes the plain tags -/

namespace Resolver

variable {r : Resolver}

/-- The members and the surroundings that a search looks at. -/
def hierarchy (r : Resolver) : Hierarchy := ⟨r.roster.find?, r.outside⟩

/-- Whether every settled member has its plain tag. -/
def Final (r : Resolver) (wf : WellFounded r.hierarchy.Overridden) (σ : Search) : Prop :=
  ∀ s tag, σ.settled? s = some tag → tag = r.hierarchy.declaredTag wf s

/-- A verdict by plain recursion. -/
def IsPlain (r : Resolver) (wf : WellFounded r.hierarchy.Overridden) (v : Verdict) : Prop :=
  v.obligations = r.hierarchy.obligations wf v.declaration.member.overrides

variable {wf : WellFounded r.hierarchy.Overridden}

theorem Final.of_ledger {vs : List Verdict} {σ τ : Search} (h : r.Final wf σ)
    (hvs : r.Ledger (r.IsPlain wf) vs σ τ) : r.Final wf τ := by
  intro s tag htag
  rcases hvs.settled?_cases htag with hs | ⟨v, hv, rfl, rfl⟩
  · exact h s tag hs
  · obtain ⟨hfind, hplain⟩ := hvs.sound v hv
    rw [Verdict.tag, hplain]
    exact Hierarchy.declaredTag_eq wf hfind

theorem final_empty : r.Final wf {} := fun s tag h => by simp [Search.settled?] at h

/-- From a state in which all that is settled is plain, and whose path lies above the member, the
search settles the member with its plain tag, and with it only members with theirs. -/
theorem settle_plain (hac : r.hierarchy.Acyclic) {n : Nat} {s : Symbol} {σ τ : Search}
    {v : Option SourcedTag} (h : r.settle n s σ = some (v, τ)) (hfinal : r.Final wf σ)
    (habove : ∀ q ∈ σ.path, Relation.TransGen r.hierarchy.Overridden s q) :
    v = r.hierarchy.declaredTag wf s ∧ ∃ vs, r.Ledger (r.IsPlain wf) vs σ τ := by
  refine settle_induct
    (P := fun s σ v τ => r.Final wf σ →
      (∀ q ∈ σ.path, Relation.TransGen r.hierarchy.Overridden s q) →
      v = r.hierarchy.declaredTag wf s ∧ ∃ vs, r.Ledger (r.IsPlain wf) vs σ τ)
    (Q := fun ps σ os τ => r.Final wf σ →
      (∀ p ∈ ps, ∀ q ∈ σ.path, Relation.TransGen r.hierarchy.Overridden p q) →
      os = r.hierarchy.obligations wf ps ∧ ∃ vs, r.Ledger (r.IsPlain wf) vs σ τ)
    ?known ?foreign ?loop ?body ?nil ?own ?beyond n s σ v τ h hfinal habove
  case known =>
    intro s σ v hs hfinal _
    exact ⟨hfinal s v hs, [], .of_eq rfl rfl rfl⟩
  case foreign =>
    intro s σ _ hf _ _
    exact ⟨by simp [Hierarchy.declaredTag, hierarchy, hf], [], .of_eq rfl rfl rfl⟩
  case loop =>
    intro s σ d _ _ hmem _ habove
    exact absurd (habove s hmem) (hac s)
  case body =>
    intro s σ d os τ hs hd hp hq hfinal habove
    have hstep : ∀ p ∈ d.member.overrides, r.hierarchy.Overridden p s := fun p hp =>
      Hierarchy.overridden_of_member hd hp
    obtain ⟨rfl, vs, hvs⟩ := hq hfinal fun p hmem q hq => by
      rcases List.mem_cons.1 hq with rfl | hq
      · exact .single (hstep p hmem)
      · exact .trans (.single (hstep p hmem)) (habove q hq)
    exact ⟨Hierarchy.declaredTag_eq wf hd, _, hvs.close hs hd hp rfl⟩
  case nil => exact fun σ _ _ => ⟨rfl, [], .of_eq rfl rfl rfl⟩
  case own =>
    intro p ps σ v τ os υ hin hp hq hfinal habove
    obtain ⟨rfl, vs, hvs⟩ := hp hfinal (habove p List.mem_cons_self)
    obtain ⟨rfl, ws, hws⟩ := hq (hfinal.of_ledger hvs) fun p' hp' =>
      hvs.path ▸ habove p' (List.mem_cons_of_mem _ hp')
    obtain ⟨d, hd⟩ := Roster.mem_symbols_iff.1 (Roster.contains_iff.1 hin)
    refine ⟨?_, _, hvs.trans hws⟩
    rw [Hierarchy.declaredTag_map wf (show r.hierarchy.member? p = some d from hd)]
    rfl
  case beyond =>
    intro p ps σ os υ hout hq hfinal habove
    have hfollow := Ledger.beyond r (r.IsPlain wf) p σ
    obtain ⟨rfl, vs, hvs⟩ := hq (hfinal.of_ledger hfollow) fun p' hp' =>
      hfollow.path ▸ habove p' (List.mem_cons_of_mem _ hp')
    have hnone : r.hierarchy.member? p = none := by
      change r.roster.find? p = none
      simpa [Roster.contains] using hout
    have htag : (r.outside.tagOf p σ.trail).1 = r.hierarchy.tag wf p := by
      rw [Outside.tagOf_fst, Hierarchy.tag_of_outside wf hnone]
      exact Hierarchy.tagFrom_eq hac wf p _ (habove p List.mem_cons_self)
    refine ⟨?_, _, hfollow.trans hvs⟩
    rw [htag]
    rfl

theorem settleAll_plain (hac : r.hierarchy.Acyclic) :
    r.Progress (r.IsPlain wf) r.roster.symbols r.settleAll := by
  refine settleAll_progress fun s σ v τ ⟨ws, hws⟩ h => ?_
  exact (settle_plain hac h (final_empty.of_ledger hws) (by simp [hws.path])).2

theorem settleAll_eq_plain {g : Hierarchy} (hg : r.hierarchy = g) (hac : g.Acyclic)
    (wf : WellFounded g.Overridden) (hn : r.roster.symbols.Nodup) :
    (∀ s, r.settleAll.1.get? s = g.declaredTag wf s) ∧
      r.settleAll.2.findings.Perm (r.roster.declarations.flatMap (g.conflicts wf r.policy)) := by
  subst hg
  have hprogress : r.Progress (r.IsPlain wf) r.roster.symbols r.settleAll := settleAll_plain hac
  obtain ⟨⟨vs, hvs⟩, hsettled, htags⟩ := hprogress
  refine ⟨fun s => ?_, ?_⟩
  · rw [htags s]
    split
    case isTrue hs =>
      obtain ⟨tag, htag⟩ := hsettled s hs
      rw [htag, Option.join_some]
      exact final_empty.of_ledger hvs s tag htag
    case isFalse hs =>
      have hnone : r.hierarchy.member? s = none :=
        Option.eq_none_iff_forall_ne_some.2 fun d hd => hs (Roster.mem_symbols_iff.2 ⟨d, hd⟩)
      rw [Hierarchy.declaredTag, hnone, Option.bind_none]
  · have hfindings : r.settleAll.2.findings =
        (vs.map Verdict.declaration).flatMap (r.hierarchy.conflicts wf r.policy) := by
      rw [hvs.findings, List.flatMap_map]
      refine List.flatMap_congr fun v hv => ?_
      obtain ⟨hfind, hplain⟩ := hvs.sound v hv
      rw [hplain]
      exact Hierarchy.conflicts_eq wf r.policy hfind
    rw [hfindings]
    exact (perm_declarations hn hvs hsettled).flatMap_right _

end Resolver

namespace SourceUnit

variable {u : SourceUnit} {o : Outside}

/-- The members of a file by first occurrence, and what lies outside it. -/
def hierarchy (u : SourceUnit) (o : Outside) : Hierarchy := ⟨u.member? o.exclusions, o⟩

theorem hierarchy_resolver (u : SourceUnit) (policy : CallPolicy) (o : Outside) :
    (Resolver.mk policy (u.roster o.exclusions) o).hierarchy = u.hierarchy o := by
  simp only [Resolver.hierarchy, hierarchy, funext (find?_roster o.exclusions u)]

/-- Only members of the file and host declarations override anything. -/
theorem mem_of_overridden {p s : Symbol} (h : (u.hierarchy o).Overridden p s) :
    s ∈ (u.roster o.exclusions).symbols ++ o.host.keys := by
  rcases List.mem_append.1 h with hp | hp
  · cases hm : (u.hierarchy o).member? s with
    | none => simp [hm] at hp
    | some d =>
      have hs : (u.roster o.exclusions).find? s = some d := (find?_roster o.exclusions u s).trans hm
      exact List.mem_append_left _ (Roster.mem_symbols_iff.2 ⟨d, hs⟩)
  · cases hh : o.host.get? s with
    | none => simp [hierarchy, hh] at hp
    | some e => exact List.mem_append_right _ (SymbolMap.mem_keys_of_get? hh)

theorem wellFounded_of_acyclic (h : (u.hierarchy o).Acyclic) :
    WellFounded (u.hierarchy o).Overridden := h.wellFounded fun _ _ => mem_of_overridden

/-- A hierarchy is acyclic when symbols can be ranked below those that override them. -/
theorem acyclic_of_rank (rank : Symbol → Nat)
    (h : ∀ s ∈ (u.roster o.exclusions).symbols ++ o.host.keys,
      ∀ p ∈ (u.hierarchy o).supers s, rank p < rank s) : (u.hierarchy o).Acyclic := by
  have hlt : ∀ p s, Relation.TransGen (u.hierarchy o).Overridden p s → rank p < rank s := by
    intro p s hps
    induction hps with
    | single hstep => exact h _ (mem_of_overridden hstep) _ hstep
    | tail _ hstep ih => exact ih.trans (h _ (mem_of_overridden hstep) _ hstep)
  exact fun s hs => (hlt s s hs).false

/-- The declared tags and the findings of a file, by plain recursion. -/
theorem declaredTags_plain (policy : CallPolicy) (h : (u.hierarchy o).Acyclic)
    (wf : WellFounded (u.hierarchy o).Overridden) :
    (∀ s, (u.declaredTags policy o).tags.get? s = (u.hierarchy o).declaredTag wf s) ∧
      (u.declaredTags policy o).findings.Perm
        ((u.roster o.exclusions).declarations.flatMap ((u.hierarchy o).conflicts wf policy)) := by
  exact Resolver.settleAll_eq_plain (hierarchy_resolver u policy o) h wf (nodup_roster_symbols _ u)

/-- On an acyclic hierarchy the tags of a file are the plain ones, no symbol but the file's members
has any, and the findings are those of its members, each first declaration counted once. -/
theorem declaredTags_eq_plain_recursion (u : SourceUnit) (policy : CallPolicy) (o : Outside)
    (h : (u.hierarchy o).Acyclic) :
    (∀ s, (u.declaredTags policy o).tags.get? s =
        (u.hierarchy o).declaredTag (wellFounded_of_acyclic h) s) ∧
      ∃ ds : List Declaration, (ds.map (·.member.symbol)).Nodup ∧
        (∀ d, d ∈ ds ↔ u.member? o.exclusions d.member.symbol = some d) ∧
        (u.declaredTags policy o).findings.Perm
          (ds.flatMap ((u.hierarchy o).conflicts (wellFounded_of_acyclic h) policy)) := by
  obtain ⟨htags, hfindings⟩ := declaredTags_plain policy h (wellFounded_of_acyclic h)
  exact ⟨htags, (u.roster o.exclusions).declarations, nodup_roster_symbols o.exclusions u,
    fun d => mem_roster_iff o.exclusions u, hfindings⟩

/-- Two ways down from one base method, which inherits from the host; the lowest method is listed
first and is annotated with neither. -/
def diamond : SourceUnit where
  path := "Diamond.java"
  types := [{ name := "app.Join", members := [
    { symbol := ⟨"app.Join#run()"⟩, kind := .method,
      overrides := [⟨"app.Right#run()"⟩, ⟨"app.Left#run()"⟩] },
    { symbol := ⟨"app.Right#run()"⟩, kind := .method, tag := some { tag := .swing },
      overrides := [⟨"app.Base#run()"⟩] },
    { symbol := ⟨"app.Left#run()"⟩, kind := .method, overrides := [⟨"app.Base#run()"⟩] },
    { symbol := ⟨"app.Base#run()"⟩, kind := .method, overrides := [⟨"lib.Task#run()"⟩] }] }]

/-- A library task that overrides a method for background threads. -/
def taskLibrary : Outside where
  exclusions := {}
  store := .empty
  host := SymbolMap.ofList [(⟨"lib.Task#run()"⟩, { overrides := [⟨"lib.Job#run()"⟩] }),
    (⟨"lib.Job#run()"⟩, { tag := some .worker })]

/-- How many override steps a symbol of the diamond is away from the host's job. -/
def diamondRank (s : Symbol) : Nat :=
  [⟨"lib.Job#run()"⟩, ⟨"lib.Task#run()"⟩, ⟨"app.Base#run()"⟩, ⟨"app.Left#run()"⟩,
    ⟨"app.Right#run()"⟩, ⟨"app.Join#run()"⟩].idxOf s

theorem declaredTags_eq_plain_recursion_diamond :
    ∃ h : (diamond.hierarchy taskLibrary).Acyclic,
      let g := diamond.hierarchy taskLibrary
      let wf := wellFounded_of_acyclic h
      g.declaredTag wf ⟨"app.Left#run()"⟩ = some ⟨.worker, .inherited⟩ ∧
        g.declaredTag wf ⟨"app.Join#run()"⟩ = some ⟨.swing, .inherited⟩ ∧
        g.declaredTag wf ⟨"lib.Task#run()"⟩ = none ∧
        ∃ ds : List Declaration, (ds.map (·.member.symbol)).Nodup ∧
          (ds.flatMap (g.conflicts wf .standard)).length = 2 := by
  have h : (diamond.hierarchy taskLibrary).Acyclic := acyclic_of_rank diamondRank (by decide)
  obtain ⟨htags, ds, hnodup, -, hperm⟩ :=
    declaredTags_eq_plain_recursion diamond .standard taskLibrary h
  refine ⟨h, (htags _).symm.trans ?_, (htags _).symm.trans ?_, (htags _).symm.trans ?_, ds, hnodup,
    hperm.length_eq.symm.trans ?_⟩
  all_goals decide

end SourceUnit

end ThreadAffinity
