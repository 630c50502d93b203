import ThreadAffinity.Proofs.Outlines

/-!
Types that are left out leave no trace.

A file is cut down to what is not left out: its covered top-level types go, and so do the anonymous
classes of covered types in all bodies, at any depth (`SourceUnit.kept`). The reader who draws up the
roster then meets the same declarations, but for what was cut out of their bodies, and so does the
walk (`SourceUnit.sightings_kept`, `SourceUnit.visits_kept`). No later stage looks into the body of a
declaration, so a check of the one file comes to what a check of the other does
(`Checker.check_kept`). -/

namespace ThreadAffinity

section Kept

variable (x : Exclusions)

mutual

/-- What is left of an expression: nothing of an anonymous class that is left out. -/
def Expr.kept : Expr → List Expr
  | .use how target span => [.use how target span]
  | .lambda context body span => [.lambda context (bodyKept body) span]
  | .anonymous type => if x.covers type.name then [] else [.anonymous type.kept]
  | .block body => [.block (bodyKept body)]

/-- What is left of a body. -/
def bodyKept : List Expr → List Expr
  | [] => []
  | e :: es => e.kept ++ bodyKept es

/-- A type with what is left of its members. -/
def TypeDef.kept : TypeDef → TypeDef
  | { name, tag, members, span } => { name, tag, members := membersKept members, span }

/-- What is left of members. -/
def membersKept : List Member → List Member
  | [] => []
  | m :: ms => m.kept :: membersKept ms

/-- A member with what is left of its body. -/
def Member.kept : Member → Member
  | { symbol, kind, visibility, tag, overrides, body, span } =>
    { symbol, kind, visibility, tag, overrides, body := bodyKept body, span }

end

/-- A file with what is left of its types. -/
def SourceUnit.kept (u : SourceUnit) : SourceUnit :=
  { u with types := (u.types.filter fun t => !x.covers t.name).map (·.kept x) }

/-- A declaration with what is left of its body. -/
def Declaration.kept (d : Declaration) : Declaration := { d with member := d.member.kept x }

/-- What is left of a sighting. -/
def Sighting.kept? : Sighting → Option Sighting
  | excluded _ => none
  | declared d => some (declared (d.kept x))

/-- What is left of a visit. -/
def Visit.kept : Visit → Visit
  | topLevel m tag => topLevel (m.kept x) tag
  | nested m tag => nested (m.kept x) tag
  | v => v

theorem Member.outline_kept (m : Member) : (m.kept x).outline = m.outline := by
  cases m
  rw [Member.kept]
  rfl

theorem Declaration.outline_kept (d : Declaration) : (d.kept x).outline = d.outline :=
  congrArg (Declaration.mk · d.typeTag) (d.member.outline_kept x)

theorem bodySightings_append : ∀ es fs : List Expr,
    bodySightings x (es ++ fs) = bodySightings x es ++ bodySightings x fs
  | [], fs => by rw [bodySightings, List.nil_append, List.nil_append]
  | e :: es, fs => by
    rw [List.cons_append, bodySightings, bodySightings, bodySightings_append es fs,
      List.append_assoc]

/-! ### What is sighted -/

theorem filterMap_kept?_declared (d : Declaration) (ss : List Sighting) :
    (.declared d :: ss).filterMap (Sighting.kept? x) =
      .declared (d.kept x) :: ss.filterMap (Sighting.kept? x) :=
  List.filterMap_cons_some rfl

mutual

theorem Expr.sightings_kept : ∀ e : Expr,
    bodySightings x (e.kept x) = (e.sightings x).filterMap (Sighting.kept? x)
  | .use how target span => by
    rw [Expr.kept, bodySightings, Expr.sightings, bodySightings]
    rfl
  | .lambda context body span => by
    rw [Expr.kept, bodySightings, Expr.sightings, Expr.sightings, bodySightings, List.append_nil,
      bodySightings_kept]
  | .anonymous type => by
    rw [Expr.kept, Expr.sightings, ← type.sightings_kept]
    split
    · rw [bodySightings]
    · rw [bodySightings, Expr.sightings, bodySightings, List.append_nil]
  | .block body => by
    rw [Expr.kept, bodySightings, Expr.sightings, Expr.sightings, bodySightings, List.append_nil,
      bodySightings_kept]

theorem bodySightings_kept : ∀ es : List Expr,
    bodySightings x (bodyKept x es) = (bodySightings x es).filterMap (Sighting.kept? x)
  | [] => by
    rw [bodyKept, bodySightings]
    rfl
  | e :: es => by
    rw [bodyKept, bodySightings_append, e.sightings_kept, bodySightings_kept es, bodySightings,
      List.filterMap_append]

theorem TypeDef.sightings_kept : ∀ t : TypeDef,
    (if x.covers t.name then [] else (t.kept x).sightings x) =
      (t.sightings x).filterMap (Sighting.kept? x)
  | { name, tag, members, span } => by
    rw [TypeDef.kept, TypeDef.sightings, TypeDef.sightings]
    dsimp only
    split
    case isTrue => rfl
    case isFalse => exact memberSightings_kept _ members

theorem memberSightings_kept (typeTag : Option Tag) : ∀ ms : List Member,
    memberSightings x typeTag (membersKept x ms) =
      (memberSightings x typeTag ms).filterMap (Sighting.kept? x)
  | [] => by
    rw [membersKept, memberSightings]
    rfl
  | m :: ms => by
    rw [membersKept, memberSightings, m.sightings_kept, memberSightings_kept typeTag ms,
      memberSightings, List.filterMap_append]

theorem Member.sightings_kept (typeTag : Option Tag) : ∀ m : Member,
    (m.kept x).sightings x typeTag = (m.sightings x typeTag).filterMap (Sighting.kept? x)
  | { body, .. } => by
    rw [Member.sightings, filterMap_kept?_declared, ← bodySightings_kept body, Declaration.kept,
      Member.kept, Member.sightings]

end

/-- A reader meets the same declarations, but for what was cut out of their bodies. -/
theorem SourceUnit.sightings_kept (u : SourceUnit) :
    (u.kept x).sightings x = (u.sightings x).filterMap (Sighting.kept? x) := by
  unfold SourceUnit.sightings SourceUnit.kept
  induction u.types with
  | nil => rfl
  | cons t ts ih =>
    rw [List.flatMap_cons, List.filterMap_append, ← t.sightings_kept, ← ih]
    cases hcov : x.covers t.name <;> simp [hcov]

/-! ### What the walk meets -/

variable (declared : TagMap)

theorem bodyVisits_append (c : Scope) : ∀ es fs : List Expr,
    bodyVisits x declared c (es ++ fs) = bodyVisits x declared c es ++ bodyVisits x declared c fs
  | [], fs => by rw [bodyVisits, List.nil_append, List.nil_append]
  | e :: es, fs => by
    rw [List.cons_append, bodyVisits, bodyVisits, bodyVisits_append c es fs, List.append_assoc]

mutual

theorem Expr.visits_kept (c : Scope) : ∀ e : Expr,
    bodyVisits x declared c (e.kept x) = (e.visits x declared c).map (Visit.kept x)
  | .use how target span => by
    rw [Expr.kept, bodyVisits, bodyVisits, Expr.visits]
    rfl
  | .lambda context body span => by
    rw [Expr.kept, bodyVisits, bodyVisits, List.append_nil, Expr.visits, Expr.visits,
      bodyVisits_kept _ body]
    rfl
  | .anonymous type => by
    rw [Expr.kept, Expr.visits, ← type.nestedVisits_kept]
    split
    · rw [bodyVisits]
    · rw [bodyVisits, bodyVisits, List.append_nil, Expr.visits]
  | .block body => by
    rw [Expr.kept, bodyVisits, bodyVisits, List.append_nil, Expr.visits, Expr.visits,
      bodyVisits_kept c body]

theorem bodyVisits_kept (c : Scope) : ∀ es : List Expr,
    bodyVisits x declared c (bodyKept x es) = (bodyVisits x declared c es).map (Visit.kept x)
  | [] => by
    rw [bodyKept, bodyVisits]
    rfl
  | e :: es => by
    rw [bodyKept, bodyVisits_append, e.visits_kept, bodyVisits_kept c es, bodyVisits,
      List.map_append]

theorem TypeDef.nestedVisits_kept (around : Tag) : ∀ t : TypeDef,
    (if x.covers t.name then [] else (t.kept x).nestedVisits x declared around) =
      (t.nestedVisits x declared around).map (Visit.kept x)
  | { name, tag, members, span } => by
    rw [TypeDef.kept, TypeDef.nestedVisits, TypeDef.nestedVisits]
    dsimp only
    split
    case isTrue => rfl
    case isFalse => exact nestedMemberVisits_kept around members

theorem nestedMemberVisits_kept (around : Tag) : ∀ ms : List Member,
    nestedMemberVisits x declared around (membersKept x ms) =
      (nestedMemberVisits x declared around ms).map (Visit.kept x)
  | [] => by
    rw [membersKept, nestedMemberVisits]
    rfl
  | m :: ms => by
    rw [membersKept, nestedMemberVisits, m.nestedVisits_kept, nestedMemberVisits_kept around ms,
      nestedMemberVisits, List.map_append]

theorem Member.nestedVisits_kept (around : Tag) : ∀ m : Member,
    (m.kept x).nestedVisits x declared around =
      (m.nestedVisits x declared around).map (Visit.kept x)
  | { symbol, body, .. } => by
    rw [Member.kept, Member.nestedVisits, Member.nestedVisits, List.map_cons, bodyVisits_kept _ body,
      Visit.kept, Member.kept]

end

theorem Member.visits_kept (m : Member) :
    (m.kept x).visits x declared = (m.visits x declared).map (Visit.kept x) := by
  cases m
  rw [Member.kept, Member.visits, Member.visits, List.map_cons, bodyVisits_kept, Visit.kept,
    Member.kept]

theorem memberVisits_kept : ∀ ms : List Member,
    (membersKept x ms).flatMap (·.visits x declared) =
      (ms.flatMap (·.visits x declared)).map (Visit.kept x)
  | [] => by
    rw [membersKept]
    rfl
  | m :: ms => by
    rw [membersKept, List.flatMap_cons, List.flatMap_cons, m.visits_kept, memberVisits_kept ms,
      List.map_append]

theorem TypeDef.visits_kept (t : TypeDef) (h : x.covers t.name = false) :
    (t.kept x).visits x declared = (t.visits x declared).map (Visit.kept x) := by
  obtain ⟨name, tag, members, span⟩ := t
  rw [TypeDef.kept, TypeDef.visits, TypeDef.visits, h, if_neg Bool.false_ne_true,
    if_neg Bool.false_ne_true]
  exact memberVisits_kept x declared members

/-- The walk meets the same, but for what was cut out of the bodies of members. -/
theorem SourceUnit.visits_kept (u : SourceUnit) :
    (u.kept x).visits x declared = (u.visits x declared).map (Visit.kept x) := by
  unfold SourceUnit.visits SourceUnit.kept
  induction u.types with
  | nil => rfl
  | cons t ts ih =>
    rw [List.flatMap_cons, List.map_append, ← ih]
    cases hcov : x.covers t.name with
    | true => simp [hcov, TypeDef.visits]
    | false => simp [hcov, t.visits_kept x declared hcov]

end Kept

/-! ### No stage sees the difference -/

theorem outlines_kept (x : Exclusions) : ∀ ss : List Sighting,
    outlines (ss.filterMap (Sighting.kept? x)) = outlines ss
  | [] => rfl
  | .excluded _ :: ss => outlines_kept x ss
  | .declared d :: ss => by
    rw [filterMap_kept?_declared, outlines_declared, outlines_declared, d.outline_kept,
      outlines_kept x ss]

theorem Visit.outline?_kept (x : Exclusions) (v : Visit) : (v.kept x).outline? = v.outline? := by
  cases v with
  | topLevel m tag => rw [kept, outline?, outline?, m.outline_kept]
  | nested m tag => rw [kept, outline?, outline?, m.outline_kept]
  | _ => rfl

theorem Visit.site?_kept (x : Exclusions) (v : Visit) : (v.kept x).site? = v.site? := by
  cases v <;> rfl

namespace SourceUnit

variable (u : SourceUnit)

theorem sameShape_kept (x : Exclusions) : u.SameShape x (u.kept x) where
  sightings := by rw [sightings_kept, outlines_kept]
  visits declared := by
    rw [visits_kept, visitOutlines, List.filterMap_map]
    exact List.filterMap_congr fun v _ => v.outline?_kept x

/-- A file has the same declared tags and the same broken obligations without the types that are left
out. -/
theorem declaredTags_kept (policy : CallPolicy) (o : Outside) :
    ((u.kept o.exclusions).declaredTags policy o).tags = (u.declaredTags policy o).tags ∧
      ((u.kept o.exclusions).declaredTags policy o).findings =
        (u.declaredTags policy o).findings :=
  (u.sameShape_kept o.exclusions).declaredTags

/-- The walk finds out the same without the types that are left out. -/
theorem effectiveTags_kept (x : Exclusions) (declared : TagMap) (advise : Bool) :
    (u.kept x).effectiveTags x declared advise = u.effectiveTags x declared advise := by
  obtain ⟨htags, hexported, hlambdas, hfindings⟩ :=
    (u.sameShape_kept x).effectiveTags declared advise
  have hsites : ((u.kept x).effectiveTags x declared advise).sites =
      (u.effectiveTags x declared advise).sites := by
    change ((u.kept x).visits x declared).filterMap Visit.site? = _
    rw [visits_kept, List.filterMap_map]
    exact List.filterMap_congr fun v _ => v.site?_kept x
  refine EffectiveTags.ext htags hexported hlambdas hsites hfindings ?_
  rw [log_effectiveTags, log_effectiveTags, htags, hlambdas, hsites]
  rfl

end SourceUnit

namespace Checker

theorem effectiveTags_kept (c : Checker) (u : SourceUnit) (host : HostTable) (b : Build) :
    c.effectiveTags (u.kept c.exclusions) host b = c.effectiveTags u host b := by
  have htags := (u.declaredTags_kept c.policy (c.outside b.store host)).1
  change (u.kept c.exclusions).effectiveTags c.exclusions
    ((u.kept c.exclusions).declaredTags c.policy (c.outside b.store host)).tags _ = _
  rw [SourceUnit.effectiveTags_kept]
  exact congrArg (u.effectiveTags c.exclusions · _) htags

/-- A check comes to the same without the types that are left out: the same report, the same
diagnostics, and the same store and listing afterwards. -/
theorem check_kept (c : Checker) (u : SourceUnit) (host : HostTable) (b : Build) :
    (c.check (u.kept c.exclusions) host b).result = (c.check u host b).result ∧
      (c.check (u.kept c.exclusions) host b).build = (c.check u host b).build ∧
      reported (u.kept c.exclusions) (c.check (u.kept c.exclusions) host b).result =
        reported u (c.check u host b).result := by
  have heffective := c.effectiveTags_kept u host b
  have hbuild : (c.check (u.kept c.exclusions) host b).build = (c.check u host b).build := by
    rw [check_build, check_build, heffective]
  have hresult : (c.check (u.kept c.exclusions) host b).result = (c.check u host b).result := by
    have hconflicts : (c.declaredTags (u.kept c.exclusions) host b).findings =
        (c.declaredTags u host b).findings :=
      (u.declaredTags_kept c.policy (c.outside b.store host)).2
    have htags : (c.check (u.kept c.exclusions) host b).result.tags =
        (c.check u host b).result.tags := congrArg EffectiveTags.tags heffective
    have hcalls : c.callReport (u.kept c.exclusions) host b = c.callReport u host b := by
      rw [callReport, callReport, callRules, callRules, hbuild, htags, heffective]
    rw [check_result, check_result, hconflicts, heffective, hcalls]
  exact ⟨hresult, hbuild, by rw [hresult]; rfl⟩

end Checker

end ThreadAffinity
