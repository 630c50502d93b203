import ThreadAffinity.Proofs.Lineage

/-!
What a reported conflict says is so.

Every conflict that the search for declared tags reports is one of a member of the file with an
entry of its list of overridden members, and the two tags that it names are those that the two have
in the end (`SourceUnit.conflicts_genuine`). The search may come to a member many times, but settles
it once, so no entry is reported twice. All of this holds where overrides form loops and where
symbols are repeated. -/

namespace ThreadAffinity

/-- Whether the finding is of a conflict between these two members. -/
def Finding.isConflictOf (m p : Symbol) (f : Finding) : Bool :=
  match f.problem with
  | .conflictingOverride member overridden _ _ => member = m ∧ overridden = p
  | _ => false

/-! ### One member -/

namespace Declaration

variable {d : Declaration} {policy : CallPolicy} {os : List Obligation}

/-- A conflict is of an obligation that the member's tag breaks and its annotation does not
waive. -/
theorem of_mem_conflicts {f : Finding} (h : f ∈ d.conflicts policy os) :
    ∃ t, ∃ o ∈ os, d.declaredTag os = some t ∧ d.waives = false ∧
      policy.permits o.tag t.tag = false ∧ f = d.conflict t.tag o := by
  unfold conflicts at h
  split at h
  case h_1 => cases h
  case h_2 t ht =>
    split at h
    case isTrue => cases h
    case isFalse hwaives =>
      obtain ⟨o, ho, rfl⟩ := List.mem_map.1 h
      obtain ⟨hmem, hbroken⟩ := List.mem_filter.1 ho
      exact ⟨t, o, hmem, ht, by simpa using hwaives, by simpa [CallPolicy.honours] using hbroken,
        rfl⟩

theorem isConflictOf_conflict (m p : Symbol) (t : Tag) (o : Obligation) :
    (d.conflict t o).isConflictOf m p = (d.member.symbol = m ∧ o.overridden = p : Bool) := rfl

/-- A member has no conflicts but its own. -/
theorem countP_conflicts_of_ne {m p : Symbol} (h : d.member.symbol ≠ m) :
    (d.conflicts policy os).countP (·.isConflictOf m p) = 0 := by
  rw [List.countP_eq_zero]
  intro f hf
  obtain ⟨t, o, -, -, -, -, rfl⟩ := of_mem_conflicts hf
  simp [isConflictOf_conflict, h]

/-- There are no more conflicts with a symbol than obligations to it. -/
theorem countP_conflicts_le (m p : Symbol) :
    (d.conflicts policy os).countP (·.isConflictOf m p) ≤ os.countP (·.overridden = p) := by
  unfold conflicts
  split
  case h_1 => exact Nat.zero_le _
  case h_2 t _ =>
    split
    case isTrue => exact Nat.zero_le _
    case isFalse =>
      rw [List.countP_map]
      refine le_trans (List.countP_mono_left fun o _ ho => ?_)
        (List.filter_sublist.countP_le (p := fun o : Obligation => decide (o.overridden = p)))
      simp [isConflictOf_conflict] at ho
      simpa using ho.2

end Declaration

/-- Each entry of a list of overridden symbols brings one obligation at most. -/
theorem Obligation.countP_le (tag : Symbol → Option Tag) (p : Symbol) : ∀ ps : List Symbol,
    (ps.flatMap fun q => Obligation.ofTag q (tag q)).countP (·.overridden = p) ≤ ps.count p
  | [] => Nat.le_refl _
  | q :: ps => by
    rw [List.flatMap_cons, List.countP_append, List.count_cons, Nat.add_comm]
    refine Nat.add_le_add (countP_le tag p ps) ?_
    cases tag q <;> simp [Obligation.ofTag, List.countP_cons]

/-! ### All members -/

namespace Resolver

variable {r : Resolver} {ok : Verdict → Prop}

/-- Of the verdicts that a run reaches, one at most is on a given member. -/
theorem Ledger.countP_findings_le {vs : List Verdict} {τ : Search} (h : r.Ledger ok vs {} τ)
    (m p : Symbol) : τ.findings.countP (·.isConflictOf m p) = 0 ∨ ∃ v ∈ vs, v.symbol = m ∧
      τ.findings.countP (·.isConflictOf m p) ≤ v.obligations.countP (·.overridden = p) := by
  have hfindings : τ.findings =
      vs.flatMap fun v => v.declaration.conflicts r.policy v.obligations := h.findings
  have hother : ∀ ws : List Verdict, m ∉ ws.map Verdict.symbol →
      (ws.flatMap fun v => v.declaration.conflicts r.policy v.obligations).countP
        (·.isConflictOf m p) = 0 := by
    intro ws hws
    rw [List.countP_flatMap, List.sum_eq_zero]
    intro n hn
    obtain ⟨v, hv, rfl⟩ := List.mem_map.1 hn
    exact Declaration.countP_conflicts_of_ne fun he => hws (List.mem_map.2 ⟨v, hv, he⟩)
  by_cases hm : m ∈ vs.map Verdict.symbol
  · obtain ⟨v, hv, rfl⟩ := List.mem_map.1 hm
    obtain ⟨ws, us, rfl⟩ := List.append_of_mem hv
    refine Or.inr ⟨v, hv, rfl, ?_⟩
    have hnodup := h.nodup
    rw [List.map_append, List.map_cons, List.nodup_middle, List.nodup_cons, List.mem_append,
      not_or] at hnodup
    rw [hfindings, List.flatMap_append, List.flatMap_cons, List.countP_append, List.countP_append,
      hother ws hnodup.1.1, hother us hnodup.1.2, Nat.zero_add, Nat.add_zero]
    exact Declaration.countP_conflicts_le v.symbol p
  · exact Or.inl (hfindings ▸ hother vs hm)

/-- A member of the file is seen with the tag that it ends with, if with any. -/
theorem tag_of_seen {path : List Symbol} {p : Symbol} {t : Tag} (hin : r.roster.contains p = true)
    (h : r.seen r.settleAll.2 path p = some t) : (r.settleAll.1.get? p).map (·.tag) = some t := by
  by_cases hp : p ∈ path
  · rw [seen, if_pos hin, if_pos hp] at h
    cases h
  · rw [← seen_of_member hin hp, h]

end Resolver

namespace SourceUnit

variable {u : SourceUnit} {policy : CallPolicy} {o : Outside}

/-- What the report of a conflict between `m` and `p` says: `m` is declared at the span and
overrides `p`, the one has the tag `declared` and the other the tag `inherited`, and a caller on the
latter may not call the former. -/
structure Conflict (u : SourceUnit) (policy : CallPolicy) (o : Outside) (m p : Symbol)
    (declared inherited : Tag) (span : Span) : Prop where
  member : ∃ d, u.member? o.exclusions m = some d ∧ p ∈ d.member.overrides ∧ d.waives = false ∧
    d.member.span = span
  memberTag : ((u.declaredTags policy o).tags.get? m).map (·.tag) = some declared
  ownTag : (u.member? o.exclusions p).isSome = true →
    ((u.declaredTags policy o).tags.get? p).map (·.tag) = some inherited
  offered : u.member? o.exclusions p = none → o.Offers p inherited
  broken : policy.permits inherited declared = false

/-- The verdict on a member is on its first declaration. -/
theorem member?_of_verdict {ok : Verdict → Prop} {vs : List Verdict} {τ : Search}
    (hvs : Resolver.Ledger ⟨policy, u.roster o.exclusions, o⟩ ok vs {} τ) {v : Verdict}
    (hv : v ∈ vs) : u.member? o.exclusions v.symbol = some v.declaration :=
  (find?_roster o.exclusions u v.symbol).symm.trans (hvs.sound v hv).1

/-- Every finding of the search for declared tags is a conflict, and what it says is so. -/
theorem conflict_of_mem_declaredTags {f : Finding} (hf : f ∈ (u.declaredTags policy o).findings) :
    ∃ m p declared inherited, f.problem = .conflictingOverride m p declared inherited ∧
      u.Conflict policy o m p declared inherited f.span := by
  set r : Resolver := ⟨policy, u.roster o.exclusions, o⟩ with hr
  have hprogress := r.settleAll_judged
  obtain ⟨vs, hvs⟩ := hprogress.ledger
  change f ∈ r.settleAll.2.findings at hf
  rw [hvs.findings, List.nil_append] at hf
  obtain ⟨v, hv, hf⟩ := List.mem_flatMap.1 hf
  obtain ⟨t, q, hq, ht, hwaives, hbroken, rfl⟩ := Declaration.of_mem_conflicts hf
  obtain ⟨hfind, above, -, hos⟩ := hvs.sound v hv
  rw [hos] at hq
  obtain ⟨p, hp, hq⟩ := List.mem_flatMap.1 hq
  obtain ⟨inherited, hseen, rfl⟩ := Option.map_eq_some_iff.1 (Option.mem_toList.1 hq)
  refine ⟨v.symbol, p, t.tag, inherited, rfl,
    ⟨_, member?_of_verdict hvs hv, hp, hwaives, rfl⟩, ?_, ?_, ?_, hbroken⟩
  · change (r.settleAll.1.get? v.symbol).map (·.tag) = some t.tag
    rw [hprogress.tags, if_pos (Roster.mem_symbols_iff.2 ⟨_, hfind⟩), hvs.settled?_of_mem hv,
      Verdict.tag, ht]
    rfl
  · intro hin
    have hcontains : r.roster.contains p = true := by rwa [Roster.contains, find?_roster]
    exact Resolver.tag_of_seen hcontains hseen
  · intro hout
    have hcontains : r.roster.contains p = false := by
      rw [Roster.contains, find?_roster, hout, Option.isSome_none]
    rw [Resolver.seen, if_neg (by simp [hcontains])] at hseen
    exact Outside.offers_of_tagFrom hseen

/-- A conflict is found no more often than the member lists the symbol that it overrides. -/
theorem countP_declaredTags_le (u : SourceUnit) (policy : CallPolicy) (o : Outside) (m p : Symbol) :
    (u.declaredTags policy o).findings.countP (·.isConflictOf m p) ≤
      ((u.member? o.exclusions m).elim [] (·.member.overrides)).count p := by
  obtain ⟨vs, hvs⟩ := (Resolver.mk policy (u.roster o.exclusions) o).settleAll_judged.ledger
  rcases hvs.countP_findings_le m p with hzero | ⟨v, hv, rfl, hle⟩
  · exact le_of_eq_of_le hzero (Nat.zero_le _)
  · refine hle.trans ?_
    obtain ⟨above, -, hos⟩ := (hvs.sound v hv).2
    rw [member?_of_verdict hvs hv, hos]
    exact Obligation.countP_le _ p _

/-- The report of a conflict says what is so, and it is made no more often than the member lists the
symbol that it overrides. -/
theorem conflicts_genuine (u : SourceUnit) (policy : CallPolicy) (o : Outside) :
    (∀ f ∈ (u.declaredTags policy o).findings, ∃ m p declared inherited,
      f.problem = .conflictingOverride m p declared inherited ∧
        u.Conflict policy o m p declared inherited f.span) ∧
    ∀ m p, (u.declaredTags policy o).findings.countP (·.isConflictOf m p) ≤
      ((u.member? o.exclusions m).elim [] (·.member.overrides)).count p :=
  ⟨fun _ hf => conflict_of_mem_declaredTags hf, countP_declaredTags_le u policy o⟩

/-- A button that lists the listener which it overrides twice, and a timer that forms a loop with
it. The second declaration of the button does not count. -/
def button : SourceUnit where
  path := "Button.java"
  types := [
    { name := "app.Button", members := [
      { symbol := ⟨"app.Button#fire()"⟩, kind := .method, tag := some { tag := .fx },
        overrides := [⟨"lib.Listener#fire()"⟩, ⟨"lib.Listener#fire()"⟩, ⟨"app.Timer#fire()"⟩],
        span := ⟨10, 20⟩ },
      { symbol := ⟨"app.Button#fire()"⟩, kind := .method,
        tag := some { tag := .fx, ignoreParent := true }, span := ⟨30, 40⟩ }] },
    { name := "app.Timer", members := [
      { symbol := ⟨"app.Timer#fire()"⟩, kind := .method, tag := some { tag := .worker },
        overrides := [⟨"app.Button#fire()"⟩], span := ⟨50, 60⟩ }] }]

/-- A library whose listeners override the listener of the older toolkit. -/
def listeners : HostTable := SymbolMap.ofList [
  (⟨"lib.Listener#fire()"⟩, { overrides := [⟨"lib.EventListener#fire()"⟩] }),
  (⟨"lib.EventListener#fire()"⟩, { tag := some .swing })]

/-- The conflict of the button with the listener is reported at its first declaration, once for each
time that it lists the listener. -/
theorem conflicts_genuine_button :
    let found := (button.declaredTags .standard ⟨{}, {}, listeners⟩).findings
    ⟨.conflictingOverride ⟨"app.Button#fire()"⟩ ⟨"lib.Listener#fire()"⟩ .fx .swing, ⟨10, 20⟩⟩ ∈
        found ∧
      button.Conflict .standard ⟨{}, {}, listeners⟩ ⟨"app.Button#fire()"⟩ ⟨"lib.Listener#fire()"⟩
        .fx .swing ⟨10, 20⟩ ∧
      found.countP (·.isConflictOf ⟨"app.Button#fire()"⟩ ⟨"lib.Listener#fire()"⟩) = 2 := by
  intro found
  have hmem : ⟨.conflictingOverride ⟨"app.Button#fire()"⟩ ⟨"lib.Listener#fire()"⟩ .fx .swing,
      ⟨10, 20⟩⟩ ∈ found := by decide
  obtain ⟨hgenuine, hcount⟩ := conflicts_genuine button .standard ⟨{}, {}, listeners⟩
  obtain ⟨m, p, declared, inherited, hproblem, hconflict⟩ := hgenuine _ hmem
  obtain ⟨rfl, rfl, rfl, rfl⟩ := Problem.conflictingOverride.inj hproblem
  refine ⟨hmem, hconflict, Nat.le_antisymm ?_ (by decide)⟩
  exact (hcount _ _).trans (by decide)

end SourceUnit

end ThreadAffinity
