import ThreadAffinity.Proofs.CallSites
import ThreadAffinity.Proofs.EveryMember

/-!
Members that share a symbol.

A file may have several members with one symbol. The effective tags keep what the walk makes of the
first of them, but the walk goes through them all, and through the body of each on a tag of its own.
Here a use that no lambda makes is traced to the member that does (`SourceUnit.exists_home`); the
tag in force there is that member's (`PlacedMember.tag_place`). It is also the tag that the symbol is
reported with if that is a declared one, or if both this member and the first one would run on the
same tag without it (`PlacedMember.tag_eq_tag_iff`), but not otherwise. Nor do advisories take notice
of repetitions: there is one for every top-level member without a declared tag
(`SourceUnit.direct_uses_advisories`). -/

namespace ThreadAffinity

namespace PlacedMember

variable {declared : TagMap}

/-- A member's own body runs on the tag of the member. -/
theorem tag_place {n : PlacedMember} (hsymbol : n.symbol = n.place.member)
    (hbody : n.place.inLambda = false) : n.place.tag declared = (n.tag declared).tag := by
  unfold tag
  rw [hsymbol]
  obtain ⟨p, m⟩ := n
  cases p with
  | topLevel type s | nested type s around =>
    unfold Place.tag Place.member fallback
    cases declared.get? s <;> rfl
  | lambda context around => cases hbody

/-- Members with one symbol run on the same tag exactly if it is declared, or if they would do so
without it. -/
theorem tag_eq_tag_iff {n n' : PlacedMember} (h : n.symbol = n'.symbol) :
    (n.tag declared).tag = (n'.tag declared).tag ↔
      (declared.get? n.symbol).isSome ∨
        (n.fallback declared).tag = (n'.fallback declared).tag := by
  unfold tag
  rw [← h]
  cases declared.get? n.symbol <;> simp

end PlacedMember

/-- Whether the member itself makes the use, and on its own tag: no lambda makes it, and it is no
method reference with a tag of its own. -/
def PlacedUse.isDirect (n : PlacedUse) : Bool := !n.place.inLambda && n.how.context.isNone

/-! ### What stands in a member's own body -/

/-- Whether one of the items is the member in whose own body the place is, if it is in one. -/
def Place.HomeIn (q : Place) (is : List PlacedItem) : Prop :=
  q.inLambda = false → ∃ home, .member home ∈ is ∧ home.place = q ∧ home.symbol = q.member

theorem Place.HomeIn.of_subset {q : Place} {is js : List PlacedItem} (h : q.HomeIn is)
    (hsub : is ⊆ js) : q.HomeIn js := fun hin =>
  (h hin).imp fun _ hhome => hhome.imp_left (hsub ·)

/-- What is in a member's body is at home in the member, or in one further inside. -/
theorem Place.HomeIn.of_body {p q : Place} {m : Member} {is : List PlacedItem}
    (hp : p.member = m.symbol) (h : q = p ∨ q.HomeIn is) : q.HomeIn (.member ⟨p, m⟩ :: is) := by
  rcases h with rfl | h
  · exact fun _ => ⟨_, List.mem_cons_self, rfl, hp.symm⟩
  · exact h.of_subset (List.subset_cons_self ..)

mutual

/-- What is in an expression stands where the expression does, or is at home inside. -/
theorem Expr.home_items (p : Place) : ∀ e : Expr, ∀ i ∈ e.items p,
    i.place = p ∨ i.place.HomeIn (e.items p)
  | .use how target span, i, hi => by
    rw [Expr.items, List.mem_singleton] at hi
    exact Or.inl (hi ▸ rfl)
  | .lambda context body span, i, hi => by
    rw [Expr.items] at hi ⊢
    rcases List.mem_cons.1 hi with rfl | hi
    · exact Or.inl rfl
    · rcases home_bodyItems (.lambda context p) body i hi with hplace | hhome
      · exact Or.inr fun hin => by simp [hplace, Place.inLambda] at hin
      · exact Or.inr (hhome.of_subset (List.subset_cons_self ..))
  | .anonymous type, i, hi => by
    rw [Expr.items] at hi ⊢
    rcases List.mem_cons.1 hi with rfl | hi
    · exact Or.inl rfl
    · exact Or.inr ((type.home_nestedItems p i hi).of_subset (List.subset_cons_self ..))
  | .block body, i, hi => by
    rw [Expr.items] at hi ⊢
    rcases List.mem_cons.1 hi with rfl | hi
    · exact Or.inl rfl
    · exact (home_bodyItems p body i hi).imp_right (·.of_subset (List.subset_cons_self ..))

theorem home_bodyItems (p : Place) : ∀ es : List Expr, ∀ i ∈ bodyItems p es,
    i.place = p ∨ i.place.HomeIn (bodyItems p es)
  | [], i, hi => by simp [bodyItems] at hi
  | e :: es, i, hi => by
    rw [bodyItems] at hi ⊢
    rcases List.mem_append.1 hi with hi | hi
    · exact (e.home_items p i hi).imp_right (·.of_subset (List.subset_append_left ..))
    · exact (home_bodyItems p es i hi).imp_right (·.of_subset (List.subset_append_right ..))

theorem TypeDef.home_nestedItems (p : Place) : ∀ t : TypeDef, ∀ i ∈ t.nestedItems p,
    i.place.HomeIn (t.nestedItems p)
  | { name, members, .. }, i, hi => by
    rw [TypeDef.nestedItems] at hi ⊢
    exact home_nestedMemberItems p name members i hi

theorem home_nestedMemberItems (p : Place) (type : String) : ∀ ms : List Member,
    ∀ i ∈ nestedMemberItems p type ms, i.place.HomeIn (nestedMemberItems p type ms)
  | [], i, hi => by simp [nestedMemberItems] at hi
  | m :: ms, i, hi => by
    rw [nestedMemberItems] at hi ⊢
    rcases List.mem_append.1 hi with hi | hi
    · exact (m.home_nestedItems p type i hi).of_subset (List.subset_append_left ..)
    · exact (home_nestedMemberItems p type ms i hi).of_subset (List.subset_append_right ..)

theorem Member.home_nestedItems (p : Place) (type : String) : ∀ m : Member,
    ∀ i ∈ m.nestedItems p type, i.place.HomeIn (m.nestedItems p type)
  | { symbol, body, .. }, i, hi => by
    rw [Member.nestedItems] at hi ⊢
    refine .of_body rfl ?_
    rcases List.mem_cons.1 hi with rfl | hi
    · exact Or.inl rfl
    · exact home_bodyItems (.nested type symbol p) body i hi

end

namespace SourceUnit

variable {u : SourceUnit} {x : Exclusions} {declared : TagMap}

theorem home_items {i : PlacedItem} (hi : i ∈ u.items) : i.place.HomeIn u.items := by
  obtain ⟨t, ht, hi⟩ := List.mem_flatMap.1 hi
  obtain ⟨m, hm, hi⟩ := List.mem_flatMap.1 hi
  have hmember : i.place.HomeIn (m.items t.name) := by
    refine .of_body rfl ?_
    rcases List.mem_cons.1 hi with rfl | hi
    · exact Or.inl rfl
    · exact home_bodyItems _ m.body i hi
  refine hmember.of_subset fun k hk => ?_
  exact List.mem_flatMap.2 ⟨t, ht, List.mem_flatMap.2 ⟨m, hm, hk⟩⟩

/-- A use that the walk goes to, and that no lambda makes, is made by a member that it goes to. -/
theorem exists_home {n : PlacedUse} (hn : n ∈ u.uses) (hvis : n.place.visible x = true)
    (hin : n.place.inLambda = false) :
    ∃ home ∈ u.visibleMembers x, home.place = n.place ∧ home.symbol = n.place.member := by
  obtain ⟨i, hi, huse⟩ := List.mem_filterMap.1 hn
  rw [i.place_of_use? n huse] at hvis hin ⊢
  obtain ⟨home, hmem, hplace, hsymbol⟩ := home_items hi hin
  have hmember : home ∈ u.placedMembers := List.mem_filterMap.2 ⟨_, hmem, rfl⟩
  exact ⟨home, List.mem_filter.2 ⟨hmember, by rwa [hplace]⟩, hplace, hsymbol⟩

/-- A symbol has an advisory for each of its top-level members, if they have no declared tag and
advisories are wanted. -/
theorem length_advisories (u : SourceUnit) (x : Exclusions) (declared : TagMap) (advise : Bool)
    (s : Symbol) :
    ((u.effectiveTags x declared advise).findings.filter
        (·.problem = .unannotated s)).length =
      if advise && (declared.get? s).isNone then
        ((u.visibleMembers x).filter fun n => n.isTopLevel && n.symbol = s).length
      else 0 := by
  have hpick : ∀ n : PlacedMember,
      (decide (n.advisory.problem = .unannotated s) &&
        (n.isTopLevel && (declared.get? n.symbol).isNone)) =
      ((declared.get? s).isNone && (n.isTopLevel && decide (n.symbol = s))) := fun n => by
    by_cases hs : n.symbol = s
    · simp [PlacedMember.advisory, hs, Bool.and_comm]
    · simp [PlacedMember.advisory, hs]
  change ((if advise then _ else []).filter _).length = _
  cases advise with
  | false => rfl
  | true =>
    rw [if_pos rfl, advisories_eq, List.filter_map, List.length_map, List.filter_filter]
    refine (congrArg List.length (List.filter_congr fun n _ => hpick n)).trans ?_
    cases (declared.get? s).isNone <;> simp

/-- The call sites are those of the uses that the walk goes to. If a member itself makes such a use,
the site has the tag that the member's symbol is reported with exactly if that is a declared one, or
if this member and the first one with the symbol would run on the same tag without it. A symbol
without a declared tag has an advisory for each top-level member that has it, if advisories are
wanted. -/
theorem direct_uses_advisories (u : SourceUnit) (x : Exclusions) (declared : TagMap)
    (advise : Bool) :
    (u.effectiveTags x declared advise).sites =
        (u.uses.filter (·.place.visible x)).map (·.site declared) ∧
      (∀ n ∈ u.uses, n.place.visible x = true → n.isDirect = true →
        ∃ first home,
          (u.visibleMembers x).find? (·.symbol = n.place.member) = some first ∧
          home ∈ u.visibleMembers x ∧ home.place = n.place ∧ home.symbol = n.place.member ∧
          (((u.effectiveTags x declared advise).tags.get? n.place.member).map SourcedTag.tag =
              some (n.site declared).callerTag ↔
            (declared.get? n.place.member).isSome ∨
              (first.fallback declared).tag = (home.fallback declared).tag)) ∧
      ∀ s, ((u.effectiveTags x declared advise).findings.filter
          (·.problem = .unannotated s)).length =
        if advise && (declared.get? s).isNone then
          ((u.visibleMembers x).filter fun n => n.isTopLevel && n.symbol = s).length
        else 0 := by
  refine ⟨u.sites_eq x declared, fun n hn hvis hdirect => ?_,
    u.length_advisories x declared advise⟩
  obtain ⟨hin, hcontext⟩ : n.place.inLambda = false ∧ n.how.context = none := by
    simpa [PlacedUse.isDirect] using hdirect
  obtain ⟨home, hhome, hplace, hsymbol⟩ := exists_home hn hvis hin
  obtain ⟨first, hfirst⟩ : ∃ first,
      (u.visibleMembers x).find? (·.symbol = n.place.member) = some first :=
    Option.isSome_iff_exists.1 (List.find?_isSome.2 ⟨home, hhome, by simpa using hsymbol⟩)
  have hsame : first.symbol = home.symbol := by
    rw [hsymbol]
    simpa using List.find?_some hfirst
  have htag : (n.site declared).callerTag = (home.tag declared).tag := by
    rw [← PlacedMember.tag_place (hplace ▸ hsymbol) (hplace ▸ hin), hplace]
    change n.how.context.getD _ = _
    rw [hcontext, Option.getD_none]
  refine ⟨first, home, hfirst, hhome, hplace, hsymbol, ?_⟩
  rw [get?_effectiveTags, hfirst, htag, Option.map_some, Option.map_some, Option.some_inj,
    PlacedMember.tag_eq_tag_iff hsame, hsame, hsymbol]

/-- A clock with a method that is there twice, and a panel with an anonymous class that has the same
method once more. -/
def clock : SourceUnit where
  path := "Clock.java"
  types := [
    { name := "app.Clock", members := [
      { symbol := ⟨"app.Clock#tick()"⟩, kind := .method, span := ⟨10, 20⟩ },
      { symbol := ⟨"app.Clock#tick()"⟩, kind := .method, span := ⟨20, 30⟩ }] },
    { name := "app.Panel", members := [
      { symbol := ⟨"app.Panel#show()"⟩, kind := .method, tag := some { tag := .swing }, body := [
        .anonymous { name := "app.Panel$1", members := [
          { symbol := ⟨"app.Clock#tick()"⟩, kind := .method, body := [
            .use .call (some ⟨"lib.Log#add()"⟩) ⟨60, 70⟩] }] }] }] }]

/-- The declared tags of the clock's file. -/
def clockTags : TagMap := SymbolMap.ofList [(⟨"app.Panel#show()"⟩, ⟨.swing, .explicit⟩)]

/-- The call in the anonymous class. -/
def clockCall : PlacedUse :=
  ⟨.nested "app.Panel$1" ⟨"app.Clock#tick()"⟩ (.topLevel "app.Panel" ⟨"app.Panel#show()"⟩), .call,
    some ⟨"lib.Log#add()"⟩, ⟨60, 70⟩⟩

/-- The call is made by a member that would run on another tag than the first with its symbol, since
its site has another tag than the symbol. The symbol has two advisories. -/
theorem direct_uses_advisories_clock :
    clockCall ∈ clock.uses ∧ clockCall.place.visible {} = true ∧ clockCall.isDirect = true ∧
      clockCall.site clockTags ∈ (clock.effectiveTags {} clockTags true).sites ∧
      (∃ first home,
        (clock.visibleMembers {}).find? (·.symbol = clockCall.place.member) = some first ∧
        home ∈ clock.visibleMembers {} ∧ home.place = clockCall.place ∧
        (first.fallback clockTags).tag ≠ (home.fallback clockTags).tag) ∧
      ((clock.effectiveTags {} clockTags true).findings.filter
        (·.problem = .unannotated ⟨"app.Clock#tick()"⟩)).length = 2 := by
  have hn : clockCall ∈ clock.uses := by decide
  obtain ⟨hsites, huses, hadvisories⟩ := direct_uses_advisories clock {} clockTags true
  obtain ⟨first, home, hfirst, hhome, hplace, -, hiff⟩ := huses clockCall hn rfl rfl
  refine ⟨hn, rfl, rfl, ?_, ⟨first, home, hfirst, hhome, hplace, fun heq => ?_⟩, ?_⟩
  · rw [hsites]
    exact List.mem_map_of_mem (List.mem_filter.2 ⟨hn, rfl⟩)
  · exact absurd (hiff.2 (Or.inr heq)) (by decide)
  · rw [hadvisories]
    rfl

/-- The call is checked on the tag of the panel, while the method is reported with the universal one,
which the first two members gave it. It is advised on twice. -/
theorem repeated_member_two_tags_clock :
    (∃ c ∈ (clock.effectiveTags {} clockTags true).sites,
      c.caller.inLambda = false ∧ c.access = .call ∧ c.callerTag = .swing ∧
        ((clock.effectiveTags {} clockTags true).tags.get? c.caller.member).map SourcedTag.tag =
          some .any) ∧
    ((clock.effectiveTags {} clockTags true).findings.filter
      (·.problem = .unannotated ⟨"app.Clock#tick()"⟩)).length = 2 :=
  ⟨⟨clockCall.site clockTags, by decide, rfl, rfl, rfl, by decide⟩, by decide⟩

end SourceUnit

end ThreadAffinity
