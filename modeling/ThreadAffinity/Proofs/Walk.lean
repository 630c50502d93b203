import ThreadAffinity.Effective
import ThreadAffinity.Proofs.FileSearch
import ThreadAffinity.Proofs.SymbolMaps

/-!
The members that the walk meets, and the tags that it gives them.

The walk goes by the same members as the reader who draws up the roster, and in the same order. The
tag that it gives a member is its declared one; failing that, one that no annotation stands behind
(`Mirrors`). So the declared tags of a file can be read off its effective ones again
(`SourceUnit.declared_of_effective`). -/

namespace ThreadAffinity

/-- The tag that a member is given fits the declared tags: it is the declared one, or there is none
and no annotation stands behind it. -/
def FitsDeclared (declared : TagMap) (e : Member × SourcedTag) : Prop :=
  declared.get? e.1.symbol = some e.2 ∨
    declared.get? e.1.symbol = none ∧ e.2.origin.isDeclared = false

/-- A walk that goes by the members that were sighted, in the same order, and gives each a tag that
fits the declared ones. -/
structure Mirrors (declared : TagMap) (vs : List Visit) (ss : List Sighting) : Prop where
  members : (vs.filterMap Visit.member?).map (·.1) =
    (ss.filterMap Sighting.declaration?).map Declaration.member
  tags : ∀ e ∈ vs.filterMap Visit.member?, FitsDeclared declared e

section

variable {declared : TagMap}

theorem fitsDeclared_topLevelTag (m : Member) :
    FitsDeclared declared (m, topLevelTag declared m.symbol) := by
  unfold FitsDeclared topLevelTag
  cases declared.get? m.symbol <;> simp [Origin.isDeclared]

theorem fitsDeclared_nestedTag (around : Tag) (m : Member) :
    FitsDeclared declared (m, nestedTag declared around m.symbol) := by
  unfold FitsDeclared nestedTag
  cases declared.get? m.symbol <;> simp [Origin.isDeclared]

namespace Mirrors

variable {vs ws : List Visit} {ss ts : List Sighting}

theorem nil : Mirrors declared [] [] := ⟨rfl, by simp⟩

theorem append (h : Mirrors declared vs ss) (h' : Mirrors declared ws ts) :
    Mirrors declared (vs ++ ws) (ss ++ ts) where
  members := by
    rw [List.filterMap_append, List.filterMap_append, List.map_append, List.map_append, h.members,
      h'.members]
  tags e he := by
    rw [List.filterMap_append, List.mem_append] at he
    exact he.elim (h.tags e) (h'.tags e)

/-- A member that is met where it is sighted. -/
theorem cons {v : Visit} {e : Member × SourcedTag} {d : Declaration} (hv : v.member? = some e)
    (hd : d.member = e.1) (he : FitsDeclared declared e) (h : Mirrors declared vs ss) :
    Mirrors declared (v :: vs) (.declared d :: ss) where
  members := by
    have hs : (Sighting.declared d).declaration? = some d := rfl
    rw [List.filterMap_cons_some hv, List.filterMap_cons_some hs, List.map_cons, List.map_cons,
      h.members, hd]
  tags e' he' := by
    rw [List.filterMap_cons_some hv, List.mem_cons] at he'
    rcases he' with rfl | he'
    · exact he
    · exact h.tags e' he'

/-- What is met besides members does not matter. -/
theorem skip {v : Visit} (hv : v.member? = none) (h : Mirrors declared vs ss) :
    Mirrors declared (v :: vs) ss := by
  constructor
  · rw [List.filterMap_cons_none hv, h.members]
  · rw [List.filterMap_cons_none hv]
    exact h.tags

/-- A type that is left out shows no members. -/
theorem excluded (name : String) : Mirrors declared [] [.excluded name] := ⟨rfl, by simp⟩

end Mirrors

variable (x : Exclusions)

mutual

theorem Expr.mirrors (c : Scope) : ∀ e : Expr,
    Mirrors declared (e.visits x declared c) (e.sightings x)
  | .use how target span => by
    rw [Expr.visits, Expr.sightings]
    exact Mirrors.nil.skip rfl
  | .lambda context body span => by
    rw [Expr.visits, Expr.sightings]
    exact (bodyMirrors _ body).skip rfl
  | .anonymous type => by
    rw [Expr.visits, Expr.sightings]
    exact type.mirrors c.tag
  | .block body => by
    rw [Expr.visits, Expr.sightings]
    exact bodyMirrors c body

theorem bodyMirrors (c : Scope) : ∀ es : List Expr,
    Mirrors declared (bodyVisits x declared c es) (bodySightings x es)
  | [] => by
    rw [bodyVisits, bodySightings]
    exact .nil
  | e :: es => by
    rw [bodyVisits, bodySightings]
    exact (e.mirrors c).append (bodyMirrors c es)

theorem TypeDef.mirrors (around : Tag) : ∀ t : TypeDef,
    Mirrors declared (t.nestedVisits x declared around) (t.sightings x)
  | { name, tag, members, .. } => by
    rw [TypeDef.nestedVisits, TypeDef.sightings]
    split
    · exact .excluded name
    · exact membersMirror around (tag.map (·.tag)) members

theorem membersMirror (around : Tag) (typeTag : Option Tag) : ∀ ms : List Member,
    Mirrors declared (nestedMemberVisits x declared around ms) (memberSightings x typeTag ms)
  | [] => by
    rw [nestedMemberVisits, memberSightings]
    exact .nil
  | m :: ms => by
    rw [nestedMemberVisits, memberSightings]
    exact (m.mirrors around typeTag).append (membersMirror around typeTag ms)

theorem Member.mirrors (around : Tag) (typeTag : Option Tag) : ∀ m : Member,
    Mirrors declared (m.nestedVisits x declared around) (m.sightings x typeTag)
  | { body, .. } => by
    rw [Member.nestedVisits, Member.sightings]
    exact (bodyMirrors _ body).cons rfl rfl (fitsDeclared_nestedTag around _)

end

theorem Member.mirrors_visits (typeTag : Option Tag) (m : Member) :
    Mirrors declared (m.visits x declared) (m.sightings x typeTag) := by
  obtain ⟨symbol, kind, visibility, tag, overrides, body, span⟩ := m
  rw [Member.visits, Member.sightings]
  exact (bodyMirrors x _ body).cons rfl rfl (fitsDeclared_topLevelTag _)

theorem membersMirror_visits (typeTag : Option Tag) : ∀ ms : List Member,
    Mirrors declared (ms.flatMap (·.visits x declared)) (memberSightings x typeTag ms)
  | [] => by
    rw [List.flatMap_nil, memberSightings]
    exact .nil
  | m :: ms => by
    rw [List.flatMap_cons, memberSightings]
    exact (m.mirrors_visits x typeTag).append (membersMirror_visits typeTag ms)

/-- The walk through a top-level type mirrors it. -/
theorem TypeDef.mirrors_visits (t : TypeDef) :
    Mirrors declared (t.visits x declared) (t.sightings x) := by
  obtain ⟨name, tag, members, span⟩ := t
  rw [TypeDef.visits, TypeDef.sightings]
  split
  · exact .excluded name
  · exact membersMirror_visits x _ members

/-- The walk through a file mirrors it. -/
theorem SourceUnit.mirrors (u : SourceUnit) :
    Mirrors declared (u.visits x declared) (u.sightings x) := by
  unfold SourceUnit.visits SourceUnit.sightings
  induction u.types with
  | nil => exact .nil
  | cons t ts ih => exact (t.mirrors_visits x).append ih

end

/-! ### Reading the tags off -/

/-- A member's effective tag is the one that its first occurrence is given. -/
theorem get?_tagsOf (vs : List Visit) (s : Symbol) :
    (tagsOf vs).get? s =
      ((vs.filterMap Visit.member?).find? (·.1.symbol = s)).map (·.2) := by
  rw [tagsOf, SymbolMap.get?_foldl_putNew (fun e : Member × SourcedTag => e.1.symbol) Prod.snd]
  rfl

theorem Declaration.isDeclared_of_declaredTag {d : Declaration} {os : List Obligation}
    {t : SourcedTag} (h : d.declaredTag os = some t) : t.origin.isDeclared = true := by
  unfold declaredTag at h
  split at h
  · cases h
    rfl
  · cases h
    rfl
  · obtain ⟨tag, -, rfl⟩ := Option.map_eq_some_iff.1 h
    rfl

/-- A declared tag goes back to an annotation, and its member is one of the file. -/
theorem SourceUnit.declaredTags_get? {u : SourceUnit} {policy : CallPolicy} {o : Outside}
    {s : Symbol} {t : SourcedTag} (h : (u.declaredTags policy o).tags.get? s = some t) :
    t.origin.isDeclared = true ∧ ∃ d, u.member? o.exclusions s = some d := by
  have hprogress := (Resolver.mk policy (u.roster o.exclusions) o).settleAll_verdicts
  obtain ⟨vs, hvs⟩ := hprogress.ledger
  have hget := hprogress.tags s
  change (u.declaredTags policy o).tags.get? s = _ at hget
  rw [h] at hget
  split at hget
  case isTrue hs =>
    obtain ⟨d, hd⟩ := Roster.mem_symbols_iff.1 hs
    refine ⟨?_, d, by rw [← find?_roster, hd]⟩
    obtain ⟨tag, htag⟩ := hprogress.settled s hs
    rw [htag, Option.join_some] at hget
    rcases hvs.settled?_cases htag with hempty | ⟨v, -, -, rfl⟩
    · simp [Search.settled?] at hempty
    · exact Declaration.isDeclared_of_declaredTag hget.symm
  case isFalse => cases hget

/-- The declared tags of a file are those of its effective tags that an annotation stands behind. -/
theorem SourceUnit.declared_of_effective (u : SourceUnit) (policy : CallPolicy) (o : Outside)
    (advise : Bool) (s : Symbol) :
    (u.declaredTags policy o).tags.get? s =
      ((u.effectiveTags o.exclusions (u.declaredTags policy o).tags advise).tags.get? s).filter
        (·.origin.isDeclared) := by
  have hmirror : Mirrors (u.declaredTags policy o).tags _ _ := u.mirrors o.exclusions
  change _ = ((tagsOf (u.visits _ _)).get? s).filter _
  rw [get?_tagsOf]
  cases hfind : ((u.visits o.exclusions (u.declaredTags policy o).tags).filterMap
      Visit.member?).find? (·.1.symbol = s) with
  | none =>
    -- A member with a declared tag would have been met.
    refine Option.eq_none_iff_forall_ne_some.2 fun t ht => ?_
    obtain ⟨-, d, hd⟩ := declaredTags_get? ht
    have hmem : d.member ∈ (u.occurrences o.exclusions).map Declaration.member :=
      List.mem_map_of_mem (List.mem_of_find?_eq_some hd)
    rw [occurrences, ← hmirror.members] at hmem
    obtain ⟨e, he, heq⟩ := List.mem_map.1 hmem
    have hsym : e.1.symbol = s := by
      rw [heq]
      simpa using List.find?_some hd
    simpa [hsym] using List.find?_eq_none.1 hfind e he
  | some e =>
    have hsym : e.1.symbol = s := by simpa using List.find?_some hfind
    rcases hmirror.tags e (List.mem_of_find?_eq_some hfind) with hsome | ⟨hnone, horigin⟩
    · rw [hsym] at hsome
      rw [hsome, Option.map_some, Option.filter_some, if_pos (declaredTags_get? hsome).1]
    · rw [hsym] at hnone
      rw [hnone, Option.map_some, Option.filter_some, if_neg (by simp [horigin])]

end ThreadAffinity
