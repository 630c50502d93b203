import ThreadAffinity.Proofs.Walk

/-!
The walk through a part of a file.

The walk reads the declared tags of those members only that it goes by (`SourceUnit.visits_congr`).
So where a file consists of two parts and the declared tags of each part are those that it has on its
own, the walk through the file comes to what the walks through the two parts come to, one after the
other (`SourceUnit.effectiveTags_joined`). -/

namespace ThreadAffinity

/-- Whether two tables have the same tags for all members that are sighted. -/
def AgreeOn (declared declared' : TagMap) (ss : List Sighting) : Prop :=
  ∀ d ∈ ss.filterMap Sighting.declaration?,
    declared'.get? d.member.symbol = declared.get? d.member.symbol

section Agree

variable {declared declared' : TagMap}

theorem agreeOn_append {ss ts : List Sighting} :
    AgreeOn declared declared' (ss ++ ts) ↔
      AgreeOn declared declared' ss ∧ AgreeOn declared declared' ts := by
  simp only [AgreeOn, List.filterMap_append, List.mem_append, or_imp, forall_and]

theorem agreeOn_declared {d : Declaration} {ss : List Sighting} :
    AgreeOn declared declared' (.declared d :: ss) ↔
      declared'.get? d.member.symbol = declared.get? d.member.symbol ∧
        AgreeOn declared declared' ss :=
  List.forall_mem_cons

variable (x : Exclusions)

mutual

theorem Expr.visits_congr : ∀ (e : Expr) (c : Scope),
    AgreeOn declared declared' (e.sightings x) → e.visits x declared' c = e.visits x declared c
  | .use how target span, c, _ => by rw [Expr.visits, Expr.visits]
  | .lambda context body span, c, h => by
    rw [Expr.sightings] at h
    rw [Expr.visits, Expr.visits, bodyVisits_congr body _ h]
  | .anonymous type, c, h => by
    rw [Expr.sightings] at h
    rw [Expr.visits, Expr.visits, type.nestedVisits_congr c.tag h]
  | .block body, c, h => by
    rw [Expr.sightings] at h
    rw [Expr.visits, Expr.visits, bodyVisits_congr body c h]

theorem bodyVisits_congr : ∀ (es : List Expr) (c : Scope),
    AgreeOn declared declared' (bodySightings x es) →
      bodyVisits x declared' c es = bodyVisits x declared c es
  | [], c, _ => by rw [bodyVisits, bodyVisits]
  | e :: es, c, h => by
    rw [bodySightings, agreeOn_append] at h
    rw [bodyVisits, bodyVisits, e.visits_congr c h.1, bodyVisits_congr es c h.2]

theorem TypeDef.nestedVisits_congr : ∀ (t : TypeDef) (around : Tag),
    AgreeOn declared declared' (t.sightings x) →
      t.nestedVisits x declared' around = t.nestedVisits x declared around
  | { name, tag, members, .. }, around, h => by
    rw [TypeDef.sightings] at h
    rw [TypeDef.nestedVisits, TypeDef.nestedVisits]
    split
    case isTrue => rfl
    case isFalse hcov => exact nestedMemberVisits_congr members _ around (if_neg hcov ▸ h)

theorem nestedMemberVisits_congr : ∀ (ms : List Member) (typeTag : Option Tag) (around : Tag),
    AgreeOn declared declared' (memberSightings x typeTag ms) →
      nestedMemberVisits x declared' around ms = nestedMemberVisits x declared around ms
  | [], _, around, _ => by rw [nestedMemberVisits, nestedMemberVisits]
  | m :: ms, typeTag, around, h => by
    rw [memberSightings, agreeOn_append] at h
    rw [nestedMemberVisits, nestedMemberVisits, m.nestedVisits_congr typeTag around h.1,
      nestedMemberVisits_congr ms typeTag around h.2]

theorem Member.nestedVisits_congr : ∀ (m : Member) (typeTag : Option Tag) (around : Tag),
    AgreeOn declared declared' (m.sightings x typeTag) →
      m.nestedVisits x declared' around = m.nestedVisits x declared around
  | { symbol, body, .. }, typeTag, around, h => by
    rw [Member.sightings, agreeOn_declared] at h
    have hget : declared'.get? symbol = declared.get? symbol := h.1
    have htag : nestedTag declared' around symbol = nestedTag declared around symbol := by
      rw [nestedTag, nestedTag, hget]
    rw [Member.nestedVisits, Member.nestedVisits, htag, bodyVisits_congr body _ h.2]

end

theorem Member.visits_congr (m : Member) (typeTag : Option Tag)
    (h : AgreeOn declared declared' (m.sightings x typeTag)) :
    m.visits x declared' = m.visits x declared := by
  obtain ⟨symbol, kind, visibility, tag, overrides, body, span⟩ := m
  rw [Member.sightings, agreeOn_declared] at h
  have hget : declared'.get? symbol = declared.get? symbol := h.1
  have htag : topLevelTag declared' symbol = topLevelTag declared symbol := by
    rw [topLevelTag, topLevelTag, hget]
  rw [Member.visits, Member.visits, htag, bodyVisits_congr x body _ h.2]

theorem memberVisits_congr (typeTag : Option Tag) : ∀ ms : List Member,
    AgreeOn declared declared' (memberSightings x typeTag ms) →
      ms.flatMap (·.visits x declared') = ms.flatMap (·.visits x declared)
  | [], _ => rfl
  | m :: ms, h => by
    rw [memberSightings, agreeOn_append] at h
    rw [List.flatMap_cons, List.flatMap_cons, m.visits_congr x typeTag h.1,
      memberVisits_congr typeTag ms h.2]

theorem TypeDef.visits_congr (t : TypeDef) (h : AgreeOn declared declared' (t.sightings x)) :
    t.visits x declared' = t.visits x declared := by
  obtain ⟨name, tag, members, span⟩ := t
  rw [TypeDef.sightings] at h
  rw [TypeDef.visits, TypeDef.visits]
  split
  case isTrue => rfl
  case isFalse hcov => exact memberVisits_congr x _ members (if_neg hcov ▸ h)

theorem typeVisits_congr : ∀ ts : List TypeDef,
    AgreeOn declared declared' (ts.flatMap (·.sightings x)) →
      ts.flatMap (·.visits x declared') = ts.flatMap (·.visits x declared)
  | [], _ => rfl
  | t :: ts, h => by
    rw [List.flatMap_cons, agreeOn_append] at h
    rw [List.flatMap_cons, List.flatMap_cons, t.visits_congr x h.1, typeVisits_congr ts h.2]

end Agree

/-! ### What the walk through a file reads -/

namespace SourceUnit

variable {x : Exclusions} {u : SourceUnit} {declared declared' : TagMap} {advise : Bool}

/-- The walk reads the declared tags of the members of the file and no others. -/
theorem visits_congr (h : ∀ s ∈ u.symbols x, declared'.get? s = declared.get? s) :
    u.visits x declared' = u.visits x declared :=
  typeVisits_congr x u.types (List.forall_mem_map.1 h)

/-- The members that the walk goes by are those of the file. -/
theorem symbols_visits (x : Exclusions) (u : SourceUnit) (declared : TagMap) :
    ((u.visits x declared).filterMap Visit.member?).map (·.1.symbol) = u.symbols x := by
  have hmirrors : Mirrors declared (u.visits x declared) (u.sightings x) := u.mirrors x
  have hsymbols := congrArg (List.map (·.symbol)) hmirrors.members
  rwa [List.map_map, List.map_map] at hsymbols

theorem advisory?_congr (h : ∀ s ∈ u.symbols x, declared'.get? s = declared.get? s) {v : Visit}
    (hv : v ∈ u.visits x declared) : v.advisory? declared' = v.advisory? declared := by
  cases v with
  | topLevel m tag =>
    have hm : m.symbol ∈ u.symbols x := by
      rw [← symbols_visits x u declared]
      exact List.mem_map.2 ⟨(m, tag), List.mem_filterMap.2 ⟨_, hv, rfl⟩, rfl⟩
    rw [Visit.advisory?, Visit.advisory?, SymbolMap.contains, SymbolMap.contains, h _ hm]
  | _ => rfl

/-- What a file comes to depends on the declared tags of its own members only. -/
theorem effectiveTags_congr (h : ∀ s ∈ u.symbols x, declared'.get? s = declared.get? s) :
    u.effectiveTags x declared' advise = u.effectiveTags x declared advise := by
  have hadvisories : (u.visits x declared).filterMap (Visit.advisory? declared') =
      (u.visits x declared).filterMap (Visit.advisory? declared) :=
    List.filterMap_congr fun v hv => advisory?_congr h hv
  unfold effectiveTags
  dsimp only
  rw [visits_congr h, hadvisories]

/-- Every member of the file has an effective tag, and nothing else has. -/
theorem isSome_effectiveTags_iff {s : Symbol} :
    ((u.effectiveTags x declared advise).tags.get? s).isSome = true ↔ s ∈ u.symbols x := by
  change ((tagsOf (u.visits x declared)).get? s).isSome = true ↔ _
  rw [get?_tagsOf, Option.isSome_map, List.find?_isSome, ← symbols_visits x u declared, List.mem_map]
  simp

theorem effectiveTags_get?_of_notMem {s : Symbol} (h : s ∉ u.symbols x) :
    (u.effectiveTags x declared advise).tags.get? s = none :=
  Option.eq_none_iff_forall_ne_some.2 fun _ ht =>
    h (isSome_effectiveTags_iff.1 (Option.isSome_of_eq_some ht))

end SourceUnit

/-! ### Two parts -/

theorem tagsOf_append (vs ws : List Visit) (s : Symbol) :
    (tagsOf (vs ++ ws)).get? s = ((tagsOf vs).get? s).or ((tagsOf ws).get? s) := by
  rw [get?_tagsOf, get?_tagsOf, get?_tagsOf, List.filterMap_append, List.find?_append, Option.map_or]

/-- Where no symbol is repeated, all exported members that are met are exported. -/
theorem exportsOf_eq : ∀ (vs : List Visit) (seen : List Symbol),
    (seen ++ (vs.filterMap Visit.member?).map (·.1.symbol)).Nodup →
      exportsOf seen vs = vs.filterMap Visit.exported?
  | [], _, _ => rfl
  | v :: vs, seen, h => by
    rw [exportsOf]
    cases hv : v.member? with
    | none =>
      have hexp : v.exported? = none := by cases v <;> first | rfl | cases hv
      rw [List.filterMap_cons_none hv] at h
      rw [List.filterMap_cons_none hexp]
      exact exportsOf_eq vs seen h
    | some e =>
      rw [List.filterMap_cons_some hv, List.map_cons] at h
      have hnew : e.1.symbol ∉ seen := fun hmem =>
        List.disjoint_of_nodup_append h hmem List.mem_cons_self
      have hrest : (e.1.symbol :: seen ++ (vs.filterMap Visit.member?).map (·.1.symbol)).Nodup :=
        List.perm_middle.nodup_iff.1 h
      dsimp only
      rw [if_neg (by simpa using hnew), exportsOf_eq vs _ hrest]
      cases hexp : v.exported? <;> simp [hexp]

namespace SourceUnit

variable {x : Exclusions} {u : SourceUnit} {declared : TagMap} {advise : Bool}

theorem exported_eq (hn : (u.symbols x).Nodup) :
    (u.effectiveTags x declared advise).exported =
      (u.visits x declared).filterMap Visit.exported? :=
  exportsOf_eq _ [] (by rwa [List.nil_append, symbols_visits])

theorem mem_symbols_of_exported (hn : (u.symbols x).Nodup) {s : Symbol}
    (hs : s ∈ (u.effectiveTags x declared advise).exported) : s ∈ u.symbols x := by
  rw [exported_eq hn] at hs
  obtain ⟨v, hv, hexp⟩ := List.mem_filterMap.1 hs
  rw [← symbols_visits x u declared]
  cases v with
  | topLevel m tag =>
    simp only [Visit.exported?] at hexp
    split at hexp
    · obtain rfl := Option.some.inj hexp
      exact List.mem_map.2 ⟨(m, tag), List.mem_filterMap.2 ⟨_, hv, rfl⟩, rfl⟩
    · cases hexp
  | _ => cases hexp

/-- A top-level member that other files may refer to is exported. -/
theorem mem_exported (hn : (u.symbols x).Nodup) {t : TypeDef} (ht : t ∈ u.types)
    (hcov : x.covers t.name = false) {m : Member} (hm : m ∈ t.members)
    (hexp : m.visibility.isExported = true) :
    m.symbol ∈ (u.effectiveTags x declared advise).exported := by
  have hvisit : .topLevel m (topLevelTag declared m.symbol) ∈ u.visits x declared := by
    refine List.mem_flatMap.2 ⟨t, ht, ?_⟩
    rw [TypeDef.visits, hcov, if_neg Bool.false_ne_true]
    exact List.mem_flatMap.2 ⟨m, hm, List.mem_cons_self⟩
  rw [exported_eq hn]
  exact List.mem_filterMap.2 ⟨_, hvisit, if_pos hexp⟩

end SourceUnit

/-- What the walks through two parts of a file come to, one after the other. -/
structure EffectiveTags.Joined (e₁ e₂ e : EffectiveTags) : Prop where
  tags : ∀ s, e.tags.get? s = (e₁.tags.get? s).or (e₂.tags.get? s)
  exported : e.exported = e₁.exported ++ e₂.exported
  lambdas : e.lambdas = e₁.lambdas ++ e₂.lambdas
  sites : e.sites = e₁.sites ++ e₂.sites
  findings : e.findings = e₁.findings ++ e₂.findings

/-- The walk through a file that consists of two parts comes to what the walks through the parts come
to, if each has on its own the declared tags that it has in the file. -/
theorem SourceUnit.effectiveTags_joined {u u₁ u₂ : SourceUnit} {x : Exclusions}
    {declared declared₁ declared₂ : TagMap} (advise : Bool) (htypes : u.types = u₁.types ++ u₂.types)
    (hdistinct : (u₁.symbols x ++ u₂.symbols x).Nodup)
    (h₁ : ∀ s ∈ u₁.symbols x, declared.get? s = declared₁.get? s)
    (h₂ : ∀ s ∈ u₂.symbols x, declared.get? s = declared₂.get? s) :
    (u₁.effectiveTags x declared₁ advise).Joined (u₂.effectiveTags x declared₂ advise)
      (u.effectiveTags x declared advise) := by
  have hvisits : u.visits x declared = u₁.visits x declared ++ u₂.visits x declared := by
    rw [visits, htypes, List.flatMap_append]
    rfl
  rw [← effectiveTags_congr h₁, ← effectiveTags_congr h₂]
  have hexported : (u.effectiveTags x declared advise).exported =
      (u₁.effectiveTags x declared advise).exported ++
        (u₂.effectiveTags x declared advise).exported := by
    obtain ⟨hn₁, hn₂, -⟩ := List.nodup_append.1 hdistinct
    rw [exported_eq hn₁, exported_eq hn₂, exported_eq (symbols_parts x htypes ▸ hdistinct), hvisits,
      List.filterMap_append]
  refine ⟨fun s => ?_, hexported, ?_, ?_, ?_⟩
  all_goals unfold effectiveTags
  · dsimp only
    rw [hvisits, tagsOf_append]
  · dsimp only
    rw [hvisits, List.filterMap_append]
  · dsimp only
    rw [hvisits, List.filterMap_append]
  · dsimp only
    split
    case isTrue => rw [hvisits, List.filterMap_append]
    case isFalse => rfl

end ThreadAffinity
