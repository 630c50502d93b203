import ThreadAffinity.CallCheck
import ThreadAffinity.Proofs.Obligations

/-!
The searches for tags as rules, with no depth.

What a search does with a symbol is a rule for each way that it can go (`Outside.Finds`,
`Resolver.Settles`), and the rules know of no depth: a search that never returned would have no
outcome by them. Yet each call has exactly one outcome, wherever the search stands and whatever is
settled, and however the overrides of the file and of the host lead back to themselves. It is the
outcome of every run that is deeper than the number of known symbols off the path
(`Outside.Finds.search_eq`, `Resolver.Settles.settle_eq`), for each step down puts one more of them
on the path. And a call comes back to the path that it found and adds to what is settled, without a
change to what was (`Search.Adds`), as each rule that steps onto a symbol steps off it again. -/

namespace ThreadAffinity

/-- Whether the rules allow just one outcome, and every run that is deep enough reaches it. -/
structure OnlyOutcome {α β : Type} (rule : α → β → Prop) (run : Nat → Option (α × β)) (bound : Nat)
    (a : α) (b : β) : Prop where
  allowed : rule a b
  only : ∀ a' b', rule a' b' → a' = a ∧ b' = b
  reached : ∀ n, bound < n → run n = some (a, b)

/-- An outcome is the only one if deep runs reach every outcome. -/
theorem OnlyOutcome.of_run {α β : Type} {rule : α → β → Prop} {run : Nat → Option (α × β)}
    {bound : Nat} {a : α} {b : β} (h : rule a b)
    (hrun : ∀ a b, rule a b → ∀ n, bound < n → run n = some (a, b)) :
    OnlyOutcome rule run bound a b := by
  refine ⟨h, fun a' b' h' => ?_, hrun a b h⟩
  have heq := (hrun a' b' h' _ bound.lt_succ_self).symm.trans (hrun a b h _ bound.lt_succ_self)
  simpa using heq

/-! ### Beyond the file -/

namespace Outside

mutual

/-- The outcomes of a search for the tag of a symbol. -/
inductive Finds (o : Outside) : Symbol → Trail → Option Tag → Trail → Prop
  | found {s : Symbol} {t : Trail} {tag : Option Tag} : o.look s = .found tag → Finds o s t tag t
  | loop {s : Symbol} {t : Trail} {ps : List Symbol} :
    o.look s = .onwards ps → s ∈ t.path → Finds o s t none (t.note (.outsideLoop s))
  | onwards {s : Symbol} {t t' : Trail} {ps : List Symbol} {tag : Option Tag} :
    o.look s = .onwards ps → s ∉ t.path → FindsFirst o ps (t.enter s) tag t' →
      Finds o s t tag (t'.leave s)

/-- The outcomes of a search for the first tag of several symbols. -/
inductive FindsFirst (o : Outside) : List Symbol → Trail → Option Tag → Trail → Prop
  | nil {t : Trail} : FindsFirst o [] t none t
  | hit {s : Symbol} {ss : List Symbol} {t t' : Trail} {tag : Tag} :
    Finds o s t (some tag) t' → FindsFirst o (s :: ss) t (some tag) t'
  | miss {s : Symbol} {ss : List Symbol} {t t' t'' : Trail} {tag : Option Tag} :
    Finds o s t none t' → FindsFirst o ss t' tag t'' → FindsFirst o (s :: ss) t tag t''

end

variable {o : Outside}

/-- What a run of any depth returns is an outcome. -/
theorem finds_of_search : ∀ (n : Nat) (s : Symbol) (t : Trail) (tag : Option Tag) (t' : Trail),
    o.search n s t = some (tag, t') → o.Finds s t tag t' :=
  search_induct (Q := o.FindsFirst) (fun _ _ _ => .found) (fun _ _ _ => .loop)
    (fun _ _ _ _ _ => .onwards) (fun _ => .nil) (fun _ _ _ _ _ => .hit) (fun _ _ _ _ _ _ => .miss)

/-- What a run for the first of several symbols returns is an outcome. -/
theorem findsFirst_of_firstTag {n : Nat} {ss : List Symbol} {t t' : Trail} {tag : Option Tag}
    (h : firstTag (o.search n) ss t = some (tag, t')) : o.FindsFirst ss t tag t' :=
  firstTag_induct (fun _ => .nil) (fun _ _ _ _ _ => .hit) (fun _ _ _ _ _ _ => .miss)
    (finds_of_search n) ss t tag t' h

/-- A run that is deep enough comes back to its path. -/
theorem search_path {n : Nat} {s : Symbol} {t t' : Trail} {tag : Option Tag}
    (hn : offPath o.host.keys t.path < n) (h : o.search n s t = some (tag, t')) :
    t'.path = t.path := by
  obtain ⟨t'', he, hpath⟩ := search_eq n s t hn
  obtain ⟨-, rfl⟩ : o.tagFrom t.path s = tag ∧ t'' = t' := by simpa [he] using h
  exact hpath

mutual

/-- A run that is deep enough reaches every outcome. -/
theorem Finds.search_eq {s : Symbol} {t t' : Trail} {tag : Option Tag} :
    o.Finds s t tag t' → ∀ n, offPath o.host.keys t.path < n → o.search n s t = some (tag, t')
  | .found hl, n + 1, _ => by rw [search_succ, hl]
  | .loop hl hs, n + 1, _ => by simp [search_succ, hl, hs]
  | .onwards hl hs hfirst, n + 1, hn => by
    have hlt := offPath_host_lt hl hs
    have hrun := hfirst.firstTag_eq n (show offPath _ (s :: t.path) < n by omega)
    simp [search_succ, hl, hs, hrun]

/-- A run that is deep enough reaches every outcome for the first of several symbols. -/
theorem FindsFirst.firstTag_eq {ss : List Symbol} {t t' : Trail} {tag : Option Tag} :
    o.FindsFirst ss t tag t' →
      ∀ n, offPath o.host.keys t.path < n → firstTag (o.search n) ss t = some (tag, t')
  | .nil, _, _ => rfl
  | .hit hs, n, hn => by rw [firstTag, hs.search_eq n hn]
  | .miss hs hrest, n, hn => by
    have hone := hs.search_eq n hn
    rw [firstTag, hone]
    exact hrest.firstTag_eq n (by rwa [search_path hn hone])

end

/-- Every call of the search has one outcome, and comes back to its path. -/
theorem finds_outcome (s : Symbol) (t : Trail) :
    ∃ tag t', OnlyOutcome (o.Finds s t) (o.search · s t) (offPath o.host.keys t.path) tag t' ∧
      t'.path = t.path := by
  obtain ⟨t', he, hpath⟩ := search_eq (offPath o.host.keys t.path + 1) s t (Nat.lt_succ_self _)
  exact ⟨_, t', .of_run (finds_of_search _ s t _ t' he) fun _ _ h => h.search_eq, hpath⟩

/-- Every search for the first tag has one outcome, and comes back to its path. -/
theorem findsFirst_outcome (ss : List Symbol) (t : Trail) :
    ∃ tag t', OnlyOutcome (o.FindsFirst ss t) (fun n => firstTag (o.search n) ss t)
      (offPath o.host.keys t.path) tag t' ∧ t'.path = t.path := by
  have hone : ∀ p ∈ ss, ∀ τ : Trail, τ.path = t.path → ∃ τ',
      o.search (offPath o.host.keys t.path + 1) p τ = some (o.tagFrom t.path p, τ') ∧
        τ'.path = t.path :=
    fun p _ τ hτ => hτ ▸ search_eq _ p τ (Nat.lt_succ_self _)
  obtain ⟨t', he, hpath⟩ := firstTag_eq hone t rfl
  exact ⟨_, t', .of_run (findsFirst_of_firstTag he) fun _ _ h => h.firstTag_eq, hpath⟩

/-- A search returns what the rules say. -/
theorem Finds.tagOf_eq {s : Symbol} {t t' : Trail} {tag : Option Tag} (h : o.Finds s t tag t') :
    o.tagOf s t = (tag, t') := by
  rw [tagOf, h.search_eq o.depth (offPath_host_lt_depth t.path), Option.getD_some]

theorem Finds.path_eq {s : Symbol} {t t' : Trail} {tag : Option Tag} (h : o.Finds s t tag t') :
    t'.path = t.path :=
  search_path (Nat.lt_succ_self _) (h.search_eq _ (Nat.lt_succ_self _))

theorem FindsFirst.tagOfFirst_eq {ss : List Symbol} {t t' : Trail} {tag : Option Tag}
    (h : o.FindsFirst ss t tag t') : o.tagOfFirst ss t = (tag, t') := by
  rw [tagOfFirst, h.firstTag_eq o.depth (offPath_host_lt_depth t.path), Option.getD_some]

theorem finds_tagOf (s : Symbol) (t : Trail) : o.Finds s t (o.tagOf s t).1 (o.tagOf s t).2 :=
  finds_of_search o.depth s t _ _ (search_depth_eq s t)

end Outside

/-! ### Within the file -/

/-- Whether a state stands on the same path as an earlier one, and has more settled: new members are
settled once each, on top of those of before, which stay as they were. -/
structure Search.Adds (σ τ : Search) : Prop where
  path : τ.path = σ.path
  kept : σ.KeptBy τ
  added : ∃ new, τ.settled = new ++ σ.settled ∧ (new.map Prod.fst).Nodup ∧
    ∀ e ∈ new, σ.settled? e.1 = none

namespace Resolver

mutual

/-- The outcomes of the settling of a member. -/
inductive Settles (r : Resolver) : Symbol → Search → Option SourcedTag → Search → Prop
  | known {s : Symbol} {σ : Search} {v : Option SourcedTag} :
    σ.settled? s = some v → Settles r s σ v σ
  | foreign {s : Symbol} {σ : Search} :
    σ.settled? s = none → r.roster.find? s = none → Settles r s σ none σ
  | loop {s : Symbol} {σ : Search} {d : Declaration} :
    σ.settled? s = none → r.roster.find? s = some d → s ∈ σ.path →
      Settles r s σ none (σ.note (.overrideLoop s))
  | body {s : Symbol} {σ τ : Search} {d : Declaration} {os : List Obligation} :
    σ.settled? s = none → r.roster.find? s = some d → s ∉ σ.path →
      Gathers r d.member.overrides (σ.enter s) os τ →
        Settles r s σ (d.declaredTag os) (r.close d os τ)

/-- The outcomes of the search for the obligations that overridden symbols bring with them. -/
inductive Gathers (r : Resolver) : List Symbol → Search → List Obligation → Search → Prop
  | nil {σ : Search} : Gathers r [] σ [] σ
  | own {p : Symbol} {ps : List Symbol} {σ τ υ : Search} {v : Option SourcedTag}
      {os : List Obligation} :
    r.roster.contains p = true → Settles r p σ v τ → Gathers r ps τ os υ →
      Gathers r (p :: ps) σ (Obligation.ofTag p (v.map (·.tag)) ++ os) υ
  | beyond {p : Symbol} {ps : List Symbol} {σ υ : Search} {t : Trail} {tag : Option Tag}
      {os : List Obligation} :
    r.roster.contains p = false → r.outside.Finds p σ.trail tag t →
      Gathers r ps (σ.follow t) os υ → Gathers r (p :: ps) σ (Obligation.ofTag p tag ++ os) υ

end

variable {r : Resolver}

/-- What a run of any depth returns is an outcome. -/
theorem settles_of_settle {n : Nat} {s : Symbol} {σ τ : Search} {v : Option SourcedTag}
    (h : r.settle n s σ = some (v, τ)) : r.Settles s σ v τ := by
  refine settle_induct (P := r.Settles) (Q := r.Gathers)
    (fun _ _ _ => .known) (fun _ _ => .foreign) (fun _ _ _ => .loop) (fun _ _ _ _ _ => .body)
    (fun _ => .nil) (fun _ _ _ _ _ _ _ => .own) ?beyond n s σ v τ h
  case beyond =>
    intro p ps σ os υ hp hrest
    exact .beyond hp (Outside.finds_tagOf p σ.trail) hrest

mutual

/-- A run that is deep enough reaches every outcome. -/
theorem Settles.settle_eq {s : Symbol} {σ τ : Search} {v : Option SourcedTag} :
    r.Settles s σ v τ →
      ∀ n, offPath r.roster.symbols σ.path < n → r.settle n s σ = some (v, τ)
  | .known hs, n + 1, _ => by rw [settle, hs]
  | .foreign hs hf, n + 1, _ => by rw [settle, hs, hf]
  | .loop hs hf hp, n + 1, _ => by simp [settle, hs, hf, hp]
  | .body hs hf hp hgather, n + 1, hn => by
    have hlt := offPath_cons_lt (Roster.mem_symbols_iff.2 ⟨_, hf⟩) hp
    have hrun := hgather.obligations_eq n (show offPath _ (s :: σ.path) < n by omega)
    obtain rfl := Roster.symbol_of_find? hf
    simp [settle, hs, hf, hp, hrun, close]

/-- A run that is deep enough gathers every outcome. -/
theorem Gathers.obligations_eq {ps : List Symbol} {σ τ : Search} {os : List Obligation} :
    r.Gathers ps σ os τ → ∀ n, offPath r.roster.symbols σ.path < n →
      obligations (r.overriddenTag (r.settle n)) ps σ = some (os, τ)
  | .nil, _, _ => rfl
  | .own hp hs hrest, n, hn => by
    have hone := hs.settle_eq n hn
    have hmore := hrest.obligations_eq n (by rwa [settle_path hone])
    exact obligations_cons_some.2
      ⟨_, _, _, by rw [overriddenTag_own hp, hone, Option.map_some], hmore, rfl⟩
  | .beyond hp hf hrest, n, hn => by
    have hmore := hrest.obligations_eq n (by rwa [Search.follow, hf.path_eq])
    exact obligations_cons_some.2
      ⟨_, _, _, by rw [overriddenTag_beyond hp, hf.tagOf_eq], hmore, rfl⟩

end

theorem Ledger.adds {ok : Verdict → Prop} {vs : List Verdict} {σ τ : Search}
    (h : r.Ledger ok vs σ τ) : σ.Adds τ := by
  refine ⟨h.path, h.keptBy, _, h.settled, ?_, fun e he => ?_⟩
  · rw [List.map_reverse, List.map_map]
    exact List.nodup_reverse.2 h.nodup
  · obtain ⟨v, hv, rfl⟩ := List.mem_map.1 (List.mem_reverse.1 he)
    exact (h.fresh v hv).2

theorem Settles.ledger {s : Symbol} {σ τ : Search} {v : Option SourcedTag}
    (h : r.Settles s σ v τ) : ∃ vs, r.Ledger (fun _ => True) vs σ τ :=
  settle_ledger (h.settle_eq _ (Nat.lt_succ_self _))

/-- Every call that settles a member has one outcome, and adds to what is settled. -/
theorem settles_outcome (s : Symbol) (σ : Search) :
    ∃ v τ, OnlyOutcome (r.Settles s σ) (r.settle · s σ) (offPath r.roster.symbols σ.path) v τ ∧
      σ.Adds τ := by
  obtain ⟨v, τ, he⟩ := settle_isSome _ s σ (Nat.lt_succ_self (offPath r.roster.symbols σ.path))
  obtain ⟨vs, hvs⟩ := settle_ledger he
  exact ⟨v, τ, .of_run (settles_of_settle he) fun _ _ h => h.settle_eq, hvs.adds⟩

/-- Obligations can be gathered from everywhere, and the gathering keeps a ledger. -/
theorem exists_gathers : ∀ (ps : List Symbol) (σ : Search),
    ∃ os τ, r.Gathers ps σ os τ ∧ ∃ vs, r.Ledger (fun _ => True) vs σ τ
  | [], σ => ⟨[], σ, .nil, [], .of_eq rfl rfl rfl⟩
  | p :: ps, σ => by
    cases hp : r.roster.contains p with
    | true =>
      obtain ⟨v, τ, hs, -⟩ := settles_outcome (r := r) p σ
      obtain ⟨vs, hvs⟩ := hs.allowed.ledger
      obtain ⟨os, υ, hrest, ws, hws⟩ := exists_gathers ps τ
      exact ⟨_, υ, .own hp hs.allowed hrest, _, hvs.trans hws⟩
    | false =>
      obtain ⟨os, υ, hrest, ws, hws⟩ := exists_gathers ps (σ.follow (r.outside.tagOf p σ.trail).2)
      exact ⟨_, υ, .beyond hp (Outside.finds_tagOf p σ.trail) hrest, _,
        (Ledger.beyond r _ p σ).trans hws⟩

/-- Every call that gathers obligations has one outcome, and adds to what is settled. -/
theorem gathers_outcome (ps : List Symbol) (σ : Search) :
    ∃ os τ, OnlyOutcome (r.Gathers ps σ)
      (fun n => obligations (r.overriddenTag (r.settle n)) ps σ)
      (offPath r.roster.symbols σ.path) os τ ∧ σ.Adds τ := by
  obtain ⟨os, τ, h, vs, hvs⟩ := exists_gathers (r := r) ps σ
  exact ⟨os, τ, .of_run h fun _ _ h => h.obligations_eq, hvs.adds⟩

/-! ### The callers -/

/-- The resolution has the depth that it needs. -/
theorem Settles.settle_depth_eq {s : Symbol} {σ τ : Search} {v : Option SourcedTag}
    (h : r.Settles s σ v τ) : r.settle r.depth s σ = some (v, τ) :=
  h.settle_eq r.depth (offPath_lt_depth σ.path)

/-- Members that have their turn one after another keep a ledger together. -/
theorem foldl_settleNext_ledger : ∀ (ss : List Symbol) (state : TagMap × Search),
    state.2.path = [] →
      ∃ vs, r.Ledger (fun _ => True) vs state.2 (ss.foldl r.settleNext state).2
  | [], _, _ => ⟨[], .of_eq rfl rfl rfl⟩
  | s :: ss, state, hpath => by
    obtain ⟨v, τ, h, -⟩ := settles_outcome (r := r) s state.2
    have hrun := h.allowed.settle_depth_eq
    obtain ⟨vs, hvs⟩ := settle_ledger hrun
    obtain ⟨ws, hws⟩ :=
      foldl_settleNext_ledger ss (v.elim state.1 (state.1.putNew s), τ) (hvs.path.trans hpath)
    rw [List.foldl_cons, settleNext_eq hpath hrun]
    exact ⟨_, hvs.trans hws⟩

/-- Each member has its turn on an empty path, and what it settles stays to the end. -/
theorem settleAll_turn {before after : List Symbol} {s : Symbol}
    (h : r.roster.symbols = before ++ s :: after) :
    let state := before.foldl r.settleNext (.empty, {})
    state.2.path = [] ∧ ∃ v τ, r.Settles s state.2 v τ ∧
      r.settleNext state s = (v.elim state.1 (state.1.putNew s), τ) ∧ τ.Adds r.settleAll.2 := by
  intro state
  obtain ⟨vs, hvs⟩ := foldl_settleNext_ledger (r := r) before (.empty, {}) rfl
  have hpath : state.2.path = [] := hvs.path
  obtain ⟨v, τ, hs, hadds⟩ := settles_outcome (r := r) s state.2
  have hnext := settleNext_eq hpath hs.allowed.settle_depth_eq
  have hall : r.settleAll = after.foldl r.settleNext (v.elim state.1 (state.1.putNew s), τ) := by
    rw [settleAll, h, List.foldl_append, List.foldl_cons, hnext]
  obtain ⟨ws, hws⟩ := foldl_settleNext_ledger (r := r) after
    (v.elim state.1 (state.1.putNew s), τ) (hadds.path.trans hpath)
  rw [← hall] at hws
  exact ⟨hpath, v, τ, hs.allowed, hnext, hws.adds⟩

end Resolver

/-- The first tag of what a target overrides is the target's, if nobody else knows it better. -/
theorem CallRules.targetTag_untagged {c : CallRules} {target : Symbol} {ps : List Symbol}
    {tag : Option Tag} {t : Trail} (hown : c.own.get? target = none)
    (hstore : c.outside.store.get? target = none)
    (hhost : c.outside.host.get? target = some ⟨none, ps⟩)
    (h : c.outside.FindsFirst ps { path := [target] } tag t) :
    c.targetTag target = { tag := tag.getD .any, route := .host, log := t.log } := by
  simp only [targetTag, hown, hstore, hhost, h.tagOfFirst_eq]

namespace SourceUnit

/-- However the overrides of a file and of the host lead back to themselves, every call of the
searches for tags returns: it has one outcome, which any run reaches that is deeper than the number
of known symbols off the path. It comes back to the path that it found, and of what is settled it
changes nothing. So it goes with the members of the file, each of which has its turn on an empty
path, and with the target of a call, which is on the path from the first. -/
theorem override_searches_return (u : SourceUnit) (policy : CallPolicy) (o : Outside) :
    let r : Resolver := ⟨policy, u.roster o.exclusions, o⟩
    (∀ s σ, ∃ v τ,
      OnlyOutcome (r.Settles s σ) (r.settle · s σ) (offPath r.roster.symbols σ.path) v τ ∧
        σ.Adds τ) ∧
    (∀ ps σ, ∃ os τ,
      OnlyOutcome (r.Gathers ps σ)
          (fun n => Resolver.obligations (r.overriddenTag (r.settle n)) ps σ)
          (offPath r.roster.symbols σ.path) os τ ∧
        σ.Adds τ) ∧
    (∀ s t, ∃ tag t',
      OnlyOutcome (o.Finds s t) (o.search · s t) (offPath o.host.keys t.path) tag t' ∧
        t'.path = t.path) ∧
    (∀ before s after, r.roster.symbols = before ++ s :: after →
      let state := before.foldl r.settleNext (.empty, {})
      state.2.path = [] ∧ ∃ v τ, r.Settles s state.2 v τ ∧
        r.settleNext state s = (v.elim state.1 (state.1.putNew s), τ) ∧ τ.Adds r.settleAll.2) ∧
    ∀ own target ps, own.get? target = none → o.store.get? target = none →
      o.host.get? target = some ⟨none, ps⟩ →
        ∃ tag t', OnlyOutcome (o.FindsFirst ps { path := [target] })
            (fun n => Outside.firstTag (o.search n) ps { path := [target] })
            (offPath o.host.keys [target]) tag t' ∧
          t'.path = [target] ∧
          (CallRules.mk policy own o).targetTag target =
            { tag := tag.getD .any, route := .host, log := t'.log } := by
  intro r
  refine ⟨r.settles_outcome, r.gathers_outcome, o.finds_outcome,
    fun before s after h => r.settleAll_turn h, fun own target ps hown hstore hhost => ?_⟩
  obtain ⟨tag, t', h, hpath⟩ := o.findsFirst_outcome ps { path := [target] }
  exact ⟨tag, t', h, hpath, CallRules.targetTag_untagged hown hstore hhost h.allowed⟩

/-- A task that overrides a job of the host, which overrides itself and the task. The host knows the
task as well. -/
def looped : SourceUnit where
  path := "Looped.java"
  types := [
    { name := "app.Task", members := [
      { symbol := ⟨"app.Task#run()"⟩, kind := .method, overrides := [⟨"lib.Job#run()"⟩],
        span := ⟨10, 20⟩ }] }]

end SourceUnit

/-- The other half of the loops through `SourceUnit.looped`. -/
def Outside.looped : Outside where
  exclusions := {}
  store := .empty
  host := SymbolMap.ofList [
    (⟨"lib.Job#run()"⟩, { overrides := [⟨"lib.Job#run()"⟩, ⟨"app.Task#run()"⟩] }),
    (⟨"app.Task#run()"⟩, { overrides := [⟨"lib.Job#run()"⟩] })]

namespace SourceUnit

/-- The search from the task meets both the job and the task again, a call of the job meets the job
twice, and both return. -/
theorem override_searches_return_looped :
    let r : Resolver := ⟨.standard, looped.roster {}, .looped⟩
    let task : Symbol := ⟨"app.Task#run()"⟩
    let job : Symbol := ⟨"lib.Job#run()"⟩
    let final : Search :=
      { settled := [(task, none)], log := [.outsideLoop job, .outsideLoop task] }
    (∀ v τ, r.Settles task {} v τ ↔ v = none ∧ τ = final) ∧ r.settleAll.2 = final ∧
      (CallRules.mk .standard {} .looped).targetTag job =
        { tag := .any, route := .host, log := [.outsideLoop job, .outsideLoop job] } := by
  intro r task job final
  obtain ⟨hsettles, -, -, hturn, hcall⟩ := override_searches_return looped .standard .looped
  -- One member and two symbols of the host: a depth of three is enough.
  have houtcome : ∀ v τ, r.Settles task {} v τ ↔ v = none ∧ τ = final := by
    obtain ⟨v, τ, h, -⟩ := hsettles task {}
    have hrun : r.settle 3 task {} = some (none, final) := rfl
    obtain ⟨rfl, rfl⟩ : v = none ∧ τ = final := by
      simpa using (h.reached 3 (by decide)).symm.trans hrun
    exact fun v' τ' => ⟨h.only v' τ', fun ⟨hv, hτ⟩ => hv ▸ hτ ▸ h.allowed⟩
  obtain ⟨-, v, τ, hsettled, hnext, -⟩ := hturn [] task [] rfl
  obtain ⟨tag, t, h, -, htarget⟩ := hcall {} job _ rfl rfl rfl
  have hrun : Outside.firstTag (Outside.looped.search 3) [job, task] { path := [job] } =
      some (none, ⟨[job], [.outsideLoop job, .outsideLoop job]⟩) := by
    decide
  obtain ⟨rfl, rfl⟩ : tag = none ∧ t = ⟨[job], [.outsideLoop job, .outsideLoop job]⟩ := by
    simpa using (h.reached 3 (by decide)).symm.trans hrun
  exact ⟨houtcome, (congrArg Prod.snd hnext).trans ((houtcome v τ).1 hsettled).2, htarget⟩

end SourceUnit

end ThreadAffinity
