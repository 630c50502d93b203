import ThreadAffinity.Proofs.Walk

/-!
What a file exports.

Other files may refer to a symbol if the first member that has it in reading order belongs to a
top-level type and is not private (`SourceUnit.Exports`). That is a matter of the syntax alone: the
walk through the file exports these symbols whatever the declared tags are
(`SourceUnit.mem_exported_iff`). -/

namespace ThreadAffinity

/-- The members of a file in reading order, repeated symbols and all, each with whether it belongs
to a top-level type. -/
def SourceUnit.outline (x : Exclusions) (u : SourceUnit) : List (Member × Bool) :=
  u.types.flatMap fun t =>
    if x.covers t.name then []
    else
      t.members.flatMap fun m =>
        (m, true) ::
          ((bodySightings x m.body).filterMap Sighting.declaration?).map fun d => (d.member, false)

/-- Whether other files may refer to the symbol. -/
def SourceUnit.Exports (x : Exclusions) (u : SourceUnit) (s : Symbol) : Prop :=
  ∃ m, (u.outline x).find? (·.1.symbol = s) = some (m, true) ∧ m.visibility.isExported = true

/-- The member that is met, and whether it belongs to a top-level type. -/
def Visit.placed? : Visit → Option (Member × Bool)
  | topLevel m _ => some (m, true)
  | nested m _ => some (m, false)
  | _ => none

/-- Whether what is met lies inside a member. -/
def Visit.isInner : Visit → Bool
  | topLevel .. => false
  | _ => true

section

variable (x : Exclusions) (declared : TagMap)

mutual

theorem Expr.isInner_visits (c : Scope) : ∀ e : Expr, ∀ v ∈ e.visits x declared c, v.isInner = true
  | .use how target span, v, hv => by
    rw [Expr.visits, List.mem_singleton] at hv
    exact hv ▸ rfl
  | .lambda context body span, v, hv => by
    rw [Expr.visits, List.mem_cons] at hv
    rcases hv with rfl | hv
    · rfl
    · exact bodyVisits_isInner _ body v hv
  | .anonymous type, v, hv => by
    rw [Expr.visits] at hv
    exact type.isInner_nestedVisits c.tag v hv
  | .block body, v, hv => by
    rw [Expr.visits] at hv
    exact bodyVisits_isInner c body v hv

theorem bodyVisits_isInner (c : Scope) : ∀ es : List Expr,
    ∀ v ∈ bodyVisits x declared c es, v.isInner = true
  | [], v, hv => by simp [bodyVisits] at hv
  | e :: es, v, hv => by
    rw [bodyVisits, List.mem_append] at hv
    exact hv.elim (e.isInner_visits c v) (bodyVisits_isInner c es v)

theorem TypeDef.isInner_nestedVisits (around : Tag) : ∀ t : TypeDef,
    ∀ v ∈ t.nestedVisits x declared around, v.isInner = true
  | { name, members, .. }, v, hv => by
    rw [TypeDef.nestedVisits] at hv
    split at hv
    case isTrue => cases hv
    case isFalse => exact nestedMemberVisits_isInner around members v hv

theorem nestedMemberVisits_isInner (around : Tag) : ∀ ms : List Member,
    ∀ v ∈ nestedMemberVisits x declared around ms, v.isInner = true
  | [], v, hv => by simp [nestedMemberVisits] at hv
  | m :: ms, v, hv => by
    rw [nestedMemberVisits, List.mem_append] at hv
    exact hv.elim (m.isInner_nestedVisits around v) (nestedMemberVisits_isInner around ms v)

theorem Member.isInner_nestedVisits (around : Tag) : ∀ m : Member,
    ∀ v ∈ m.nestedVisits x declared around, v.isInner = true
  | { symbol, body, .. }, v, hv => by
    rw [Member.nestedVisits, List.mem_cons] at hv
    rcases hv with rfl | hv
    · rfl
    · exact bodyVisits_isInner _ body v hv

end

theorem placed?_of_isInner {v : Visit} (h : v.isInner = true) :
    v.placed? = v.member?.map fun e => (e.1, false) := by
  cases v <;> first | rfl | cases h

/-- The members met in a body are those that are sighted there. -/
theorem placed_bodyVisits (c : Scope) (es : List Expr) :
    (bodyVisits x declared c es).filterMap Visit.placed? =
      ((bodySightings x es).filterMap Sighting.declaration?).map fun d => (d.member, false) := by
  have hmirrors : Mirrors declared _ _ := bodyMirrors x c es
  have hmembers := congrArg (List.map fun m : Member => (m, false)) hmirrors.members
  rw [List.map_map, List.map_map] at hmembers
  rw [List.filterMap_congr fun v hv => placed?_of_isInner (bodyVisits_isInner x declared c es v hv),
    ← List.map_filterMap]
  exact hmembers

/-- The members that the walk meets are those of the outline. -/
theorem SourceUnit.placed_visits (u : SourceUnit) :
    (u.visits x declared).filterMap Visit.placed? = u.outline x := by
  rw [visits, outline, List.filterMap_flatMap]
  refine List.flatMap_congr fun t _ => ?_
  rw [TypeDef.visits]
  split
  case isTrue => rfl
  case isFalse =>
    rw [List.filterMap_flatMap]
    refine List.flatMap_congr fun m _ => ?_
    exact congrArg ((m, true) :: ·) (placed_bodyVisits x declared _ m.body)

end

theorem Visit.placed?_cases (v : Visit) : (v.placed? = none ∧ v.member? = none) ∨
    ∃ m top tag, v.placed? = some (m, top) ∧ v.member? = some (m, tag) ∧
      v.exported? =
        if top = true ∧ m.visibility.isExported = true then some m.symbol else none := by
  cases v with
  | topLevel m tag => exact Or.inr ⟨m, true, tag, rfl, rfl, by simp [exported?]⟩
  | nested m tag => exact Or.inr ⟨m, false, tag, rfl, rfl, by simp [exported?]⟩
  | _ => exact Or.inl ⟨rfl, rfl⟩

/-- A symbol that is not seen yet is exported if the first member that has it may be referred to. -/
theorem mem_exportsOf {s : Symbol} : ∀ (vs : List Visit) (seen : List Symbol),
    s ∈ exportsOf seen vs ↔ s ∉ seen ∧ ∃ m,
      (vs.filterMap Visit.placed?).find? (·.1.symbol = s) = some (m, true) ∧
        m.visibility.isExported = true
  | [], seen => by simp [exportsOf]
  | v :: vs, seen => by
    have ih := mem_exportsOf (s := s) vs
    rcases v.placed?_cases with ⟨hplaced, hmember⟩ | ⟨m, top, tag, hplaced, hmember, hexp⟩
    · rw [exportsOf, hmember, List.filterMap_cons_none hplaced]
      exact ih seen
    · rw [exportsOf, hmember, List.filterMap_cons_some hplaced]
      dsimp only
      by_cases hs : m.symbol = s
      · subst hs
        rw [List.find?_cons_of_pos (by simp)]
        by_cases hseen : m.symbol ∈ seen
        · simp [hseen, ih]
        · simp [hseen, ih, hexp, and_comm]
      · rw [List.find?_cons_of_neg (by simpa using hs)]
        by_cases hseen : m.symbol ∈ seen
        · rw [if_pos (by simpa using hseen)]
          exact ih seen
        · rw [if_neg (by simpa using hseen), List.mem_append, ih, hexp]
          simp [hs, Ne.symm hs]

/-- No symbol is exported twice. -/
theorem nodup_exportsOf : ∀ (vs : List Visit) (seen : List Symbol), (exportsOf seen vs).Nodup
  | [], _ => List.nodup_nil
  | v :: vs, seen => by
    rcases v.placed?_cases with ⟨-, hmember⟩ | ⟨m, top, tag, -, hmember, hexp⟩
    · rw [exportsOf, hmember]
      exact nodup_exportsOf vs seen
    · rw [exportsOf, hmember]
      dsimp only
      split
      case isTrue => exact nodup_exportsOf vs seen
      case isFalse =>
        refine List.nodup_append.2 ⟨by cases v.exported? <;> simp, nodup_exportsOf vs _, ?_⟩
        intro s hs s' hs' heq
        have hsym : m.symbol = s := by
          rw [hexp, Option.mem_toList] at hs
          split at hs
          · exact Option.some.inj hs
          · cases hs
        exact ((mem_exportsOf vs _).1 hs').1 (heq ▸ hsym ▸ List.mem_cons_self)

/-- The walk exports what the file exports, whatever the declared tags are. -/
theorem SourceUnit.mem_exported_iff {u : SourceUnit} {x : Exclusions} {declared : TagMap}
    {advise : Bool} {s : Symbol} :
    s ∈ (u.effectiveTags x declared advise).exported ↔ u.Exports x s := by
  change s ∈ exportsOf [] (u.visits x declared) ↔ _
  rw [mem_exportsOf, placed_visits, Exports]
  simp

end ThreadAffinity
