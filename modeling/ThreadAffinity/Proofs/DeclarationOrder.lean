import ThreadAffinity.Proofs.TagEquations

/-!
The order of declarations.

A file may list its types in another order, and each type its members, those of anonymous classes
included (`SourceUnit.Reordered`). The search for declared tags starts from the members in the order
in which they are listed, and remembers what it settles on the way. As long as no chain that it
follows leads from a member back to it, the order does not show: the tags satisfy the same equations
in any order, and these have one solution (`SourceUnit.declaredTags_reordered`). Where such a chain
forms a loop, the member that is met first is the one that inherits
(`SourceUnit.declaredTags_reordered_loop`). -/

namespace ThreadAffinity

/-! ### Files in another order -/

mutual

/-- The same expression, with the members of the anonymous classes in it in any order. -/
inductive Expr.Reordered : Expr → Expr → Prop
  | use (how : Use) (target : Option Symbol) (span : Span) :
    Expr.Reordered (.use how target span) (.use how target span)
  | lambda (context : Option Tag) (span : Span) {body body' : List Expr} :
    BodyReordered body body' → Expr.Reordered (.lambda context body span) (.lambda context body' span)
  | anonymous {type type' : TypeDef} :
    TypeDef.Reordered type type' → Expr.Reordered (.anonymous type) (.anonymous type')
  | block {body body' : List Expr} :
    BodyReordered body body' → Expr.Reordered (.block body) (.block body')

/-- The same body. -/
inductive BodyReordered : List Expr → List Expr → Prop
  | nil : BodyReordered [] []
  | cons {e e' : Expr} {es es' : List Expr} :
    Expr.Reordered e e' → BodyReordered es es' → BodyReordered (e :: es) (e' :: es')

/-- The same type, with its members in any order. -/
inductive TypeDef.Reordered : TypeDef → TypeDef → Prop
  | mk (name : String) (tag : Option WrittenTag) (span : Span) {members members' : List Member} :
    MembersReordered members members' →
      TypeDef.Reordered ⟨name, tag, members, span⟩ ⟨name, tag, members', span⟩

/-- The same members, in any order. -/
inductive MembersReordered : List Member → List Member → Prop
  | nil : MembersReordered [] []
  | cons {m m' : Member} {ms ms' : List Member} :
    Member.Reordered m m' → MembersReordered ms ms' → MembersReordered (m :: ms) (m' :: ms')
  | swap (m n : Member) (ms : List Member) : MembersReordered (m :: n :: ms) (n :: m :: ms)
  | trans {ms ms' ms'' : List Member} :
    MembersReordered ms ms' → MembersReordered ms' ms'' → MembersReordered ms ms''

/-- The same member, with the anonymous classes in its body reordered. -/
inductive Member.Reordered : Member → Member → Prop
  | mk (symbol : Symbol) (kind : MemberKind) (visibility : Visibility) (tag : Option WrittenTag)
    (overrides : List Symbol) (span : Span) {body body' : List Expr} :
    BodyReordered body body' →
      Member.Reordered ⟨symbol, kind, visibility, tag, overrides, body, span⟩
        ⟨symbol, kind, visibility, tag, overrides, body', span⟩

end

/-- The same types, in any order. -/
inductive TypesReordered : List TypeDef → List TypeDef → Prop
  | nil : TypesReordered [] []
  | cons {t t' : TypeDef} {ts ts' : List TypeDef} :
    TypeDef.Reordered t t' → TypesReordered ts ts' → TypesReordered (t :: ts) (t' :: ts')
  | swap (t v : TypeDef) (ts : List TypeDef) : TypesReordered (t :: v :: ts) (v :: t :: ts)
  | trans {ts ts' ts'' : List TypeDef} :
    TypesReordered ts ts' → TypesReordered ts' ts'' → TypesReordered ts ts''

mutual

theorem Expr.Reordered.refl : ∀ e : Expr, e.Reordered e
  | .use how target span => .use how target span
  | .lambda context body span => .lambda context span (bodyReordered_refl body)
  | .anonymous type => .anonymous (TypeDef.Reordered.refl type)
  | .block body => .block (bodyReordered_refl body)

theorem bodyReordered_refl : ∀ es : List Expr, BodyReordered es es
  | [] => .nil
  | e :: es => .cons (Expr.Reordered.refl e) (bodyReordered_refl es)

theorem TypeDef.Reordered.refl : ∀ t : TypeDef, t.Reordered t
  | ⟨name, tag, members, span⟩ => .mk name tag span (membersReordered_refl members)

theorem membersReordered_refl : ∀ ms : List Member, MembersReordered ms ms
  | [] => .nil
  | m :: ms => .cons (Member.Reordered.refl m) (membersReordered_refl ms)

theorem Member.Reordered.refl : ∀ m : Member, m.Reordered m
  | ⟨symbol, kind, visibility, tag, overrides, body, span⟩ =>
    .mk symbol kind visibility tag overrides span (bodyReordered_refl body)

end

theorem TypesReordered.refl : ∀ ts : List TypeDef, TypesReordered ts ts
  | [] => .nil
  | t :: ts => .cons (TypeDef.Reordered.refl t) (TypesReordered.refl ts)

/-- The same file, with its types and their members in any order. -/
def SourceUnit.Reordered (u u' : SourceUnit) : Prop := TypesReordered u.types u'.types

/-! ### What reordering does to the declarations -/

/-- What a resolution reads of a declaration: all but its body. -/
def Declaration.outline (d : Declaration) : Declaration :=
  { d with member := { d.member with body := [] } }

/-- The outlines of the declarations that are sighted. -/
def outlines (ss : List Sighting) : List Declaration :=
  (ss.filterMap Sighting.declaration?).map Declaration.outline

theorem outlines_append (ss ts : List Sighting) :
    outlines (ss ++ ts) = outlines ss ++ outlines ts := by
  simp [outlines]

theorem outlines_declared (d : Declaration) (ss : List Sighting) :
    outlines (.declared d :: ss) = d.outline :: outlines ss := rfl

section Outlines

variable (x : Exclusions)

mutual

theorem Expr.Reordered.outlines_perm : ∀ {e e' : Expr}, e.Reordered e' →
    (outlines (e.sightings x)).Perm (outlines (e'.sightings x))
  | _, _, .use _ _ _ => .refl _
  | _, _, .lambda _ _ h => by
    rw [Expr.sightings, Expr.sightings]
    exact h.outlines_perm
  | _, _, .anonymous h => by
    rw [Expr.sightings, Expr.sightings]
    exact h.outlines_perm
  | _, _, .block h => by
    rw [Expr.sightings, Expr.sightings]
    exact h.outlines_perm

theorem BodyReordered.outlines_perm : ∀ {es es' : List Expr}, BodyReordered es es' →
    (outlines (bodySightings x es)).Perm (outlines (bodySightings x es'))
  | _, _, .nil => .refl _
  | _, _, .cons h hs => by
    rw [bodySightings, bodySightings, outlines_append, outlines_append]
    exact h.outlines_perm.append hs.outlines_perm

theorem TypeDef.Reordered.outlines_perm : ∀ {t t' : TypeDef}, t.Reordered t' →
    (outlines (t.sightings x)).Perm (outlines (t'.sightings x))
  | _, _, .mk name tag span h => by
    rw [TypeDef.sightings, TypeDef.sightings]
    split
    · exact .refl _
    · exact h.outlines_perm _

theorem MembersReordered.outlines_perm : ∀ {ms ms' : List Member}, MembersReordered ms ms' →
    ∀ typeTag : Option Tag,
      (outlines (memberSightings x typeTag ms)).Perm (outlines (memberSightings x typeTag ms'))
  | _, _, .nil, _ => .refl _
  | _, _, .cons h hs, typeTag => by
    rw [memberSightings, memberSightings, outlines_append, outlines_append]
    exact (h.outlines_perm typeTag).append (hs.outlines_perm typeTag)
  | _, _, .swap m n ms, typeTag => by
    simp only [memberSightings, outlines_append]
    exact List.perm_append_comm_assoc ..
  | _, _, .trans h h', typeTag => (h.outlines_perm typeTag).trans (h'.outlines_perm typeTag)

theorem Member.Reordered.outlines_perm : ∀ {m m' : Member}, m.Reordered m' →
    ∀ typeTag : Option Tag,
      (outlines (m.sightings x typeTag)).Perm (outlines (m'.sightings x typeTag))
  | _, _, .mk _ _ _ _ _ _ h, typeTag => by
    rw [Member.sightings, Member.sightings, outlines_declared, outlines_declared]
    exact h.outlines_perm.cons _

end

theorem TypesReordered.outlines_perm {ts ts' : List TypeDef} (h : TypesReordered ts ts') :
    (outlines (ts.flatMap (·.sightings x))).Perm (outlines (ts'.flatMap (·.sightings x))) := by
  induction h with
  | nil => exact .refl _
  | cons h _ ih =>
    rw [List.flatMap_cons, List.flatMap_cons, outlines_append, outlines_append]
    exact (h.outlines_perm x).append ih
  | swap t v ts =>
    simp only [List.flatMap_cons, outlines_append]
    exact List.perm_append_comm_assoc ..
  | trans _ _ ih ih' => exact ih.trans ih'

end Outlines

/-! ### Declarations with the same outlines -/

namespace Declaration

variable {d d' : Declaration}

theorem symbol_of_outline (h : d.outline = d'.outline) : d.member.symbol = d'.member.symbol := by
  change d.outline.member.symbol = d'.outline.member.symbol
  rw [h]

theorem overrides_of_outline (h : d.outline = d'.outline) :
    d.member.overrides = d'.member.overrides := by
  change d.outline.member.overrides = d'.outline.member.overrides
  rw [h]

theorem declaredTag_outline (d : Declaration) (os : List Obligation) :
    d.outline.declaredTag os = d.declaredTag os := rfl

end Declaration

namespace Roster

variable {r r' : Roster}

theorem symbols_eq_outlines (r : Roster) :
    r.symbols = (r.declarations.map Declaration.outline).map (·.member.symbol) := by
  rw [List.map_map]
  rfl

/-- Rosters with the same outlines in any order give a symbol the same outline. -/
theorem find?_of_outlines
    (h : (r.declarations.map Declaration.outline).Perm (r'.declarations.map Declaration.outline))
    (hn' : r'.symbols.Nodup) {s : Symbol} {d : Declaration} (hd : r.find? s = some d) :
    ∃ d', r'.find? s = some d' ∧ d.outline = d'.outline := by
  have hmem : d.outline ∈ r'.declarations.map Declaration.outline :=
    h.mem_iff.1 (List.mem_map_of_mem (mem_of_find? hd))
  obtain ⟨d', hd', heq⟩ := List.mem_map.1 hmem
  refine ⟨d', ?_, heq.symm⟩
  have hs : d'.member.symbol = s :=
    (Declaration.symbol_of_outline heq).trans (symbol_of_find? hd)
  exact hs ▸ find?_of_mem hn' hd'

end Roster

namespace Resolver

variable {r r' : Resolver}

/-- Two searches, through rosters with the same outlines and with the same beyond them. -/
structure SameOutlines (r r' : Resolver) : Prop where
  policy : r'.policy = r.policy
  outside : r'.outside = r.outside
  outlines : (r.roster.declarations.map Declaration.outline).Perm
    (r'.roster.declarations.map Declaration.outline)
  nodup : r.roster.symbols.Nodup

namespace SameOutlines

theorem nodup' (h : r.SameOutlines r') : r'.roster.symbols.Nodup := by
  have hn := h.nodup
  rw [Roster.symbols_eq_outlines] at hn ⊢
  exact (h.outlines.map _).nodup_iff.1 hn

theorem symm (h : r.SameOutlines r') : r'.SameOutlines r :=
  ⟨h.policy.symm, h.outside.symm, h.outlines.symm, h.nodup'⟩

theorem find? (h : r.SameOutlines r') {s : Symbol} {d : Declaration}
    (hd : r.roster.find? s = some d) :
    ∃ d', r'.roster.find? s = some d' ∧ d.outline = d'.outline :=
  Roster.find?_of_outlines h.outlines h.nodup' hd

theorem find?_eq_none (h : r.SameOutlines r') {s : Symbol} (hs : r.roster.find? s = none) :
    r'.roster.find? s = none := by
  by_contra hne
  obtain ⟨d', hd'⟩ := Option.ne_none_iff_exists'.1 hne
  obtain ⟨d, hd, -⟩ := h.symm.find? hd'
  simp [hs] at hd

theorem contains (h : r.SameOutlines r') (s : Symbol) :
    r'.roster.contains s = r.roster.contains s := by
  cases hd : r.roster.find? s with
  | none => rw [Roster.contains, Roster.contains, hd, h.find?_eq_none hd]
  | some d =>
    obtain ⟨d', hd', -⟩ := h.find? hd
    rw [Roster.contains, Roster.contains, hd, hd', Option.isSome_some, Option.isSome_some]

theorem membersAcyclic (h : r.SameOutlines r') (hac : r.hierarchy.MembersAcyclic) :
    r'.hierarchy.MembersAcyclic := by
  intro s hs hloop
  refine hac s ((h.contains s).symm.trans hs) (Relation.TransGen.mono ?_ s s hloop)
  rintro s p (⟨d', hd', hp⟩ | ⟨ps, hl, hp⟩)
  · obtain ⟨d, hd, heq⟩ := h.symm.find? hd'
    exact Or.inl ⟨d, hd, Declaration.overrides_of_outline heq ▸ hp⟩
  · rw [hierarchy, h.outside] at hl
    exact Or.inr ⟨ps, hl, hp⟩

/-- The equations for declared tags have one solution. -/
theorem settleAll_get? (h : r.SameOutlines r') (hac : r.hierarchy.MembersAcyclic) (s : Symbol) :
    r'.settleAll.1.get? s = r.settleAll.1.get? s := by
  have htags := (settleAll_equations hac h.nodup).1
  have htags' := (settleAll_equations (h.membersAcyclic hac) h.nodup').1
  have wf : WellFounded fun p s => r.Overrides s p := by
    refine wellFounded_of_loopless (fun s hs => ?_) (l := r.roster.symbols) ?_
    · have hloop := Relation.transGen_swap.1 hs
      exact hac s (member_of_overrides hloop) (follows_of_overrides hloop)
    · rintro p s ⟨d, hd, -⟩
      exact Roster.mem_symbols_iff.2 ⟨d, hd⟩
  induction s using wf.induction with
  | _ s ih =>
    rw [htags, htags']
    cases hd : r.roster.find? s with
    | none => rw [h.find?_eq_none hd, Option.bind_none, Option.bind_none]
    | some d =>
      obtain ⟨d', hd', heq⟩ := h.find? hd
      have hobligations : r'.endObligations d.member.overrides =
          r.endObligations d.member.overrides := by
        refine List.flatMap_congr fun p hp => ?_
        rw [endTag, endTag, h.contains, h.outside]
        split
        case isTrue hin => rw [ih p ⟨d, hd, hp, hin⟩]
        case isFalse => rfl
      rw [hd', Option.bind_some, Option.bind_some, ← Declaration.overrides_of_outline heq,
        hobligations, ← d.declaredTag_outline, heq, d'.declaredTag_outline]

theorem endObligations (h : r.SameOutlines r') (hac : r.hierarchy.MembersAcyclic)
    (ps : List Symbol) : r'.endObligations ps = r.endObligations ps := by
  refine List.flatMap_congr fun p _ => ?_
  rw [endTag, endTag, h.contains, h.outside, h.settleAll_get? hac]

theorem findings_perm (h : r.SameOutlines r') (hac : r.hierarchy.MembersAcyclic) :
    r'.settleAll.2.findings.Perm r.settleAll.2.findings := by
  have hread : ∀ ds : List Declaration,
      (ds.flatMap fun d => d.conflicts r.policy (r.endObligations d.member.overrides)) =
        (ds.map Declaration.outline).flatMap fun d =>
          d.conflicts r.policy (r.endObligations d.member.overrides) := fun ds => by
    rw [List.flatMap_map]
    rfl
  refine (settleAll_equations (h.membersAcyclic hac) h.nodup').2.trans ?_
  refine .trans ?_ (settleAll_equations hac h.nodup).2.symm
  simp only [h.endObligations hac, h.policy]
  rw [hread r'.roster.declarations, hread r.roster.declarations]
  exact h.outlines.symm.flatMap_right _

end SameOutlines

end Resolver

namespace SourceUnit

variable {u u' : SourceUnit} {o : Outside}

/-- The outlines of the collected declarations, each occurrence counted. -/
theorem Reordered.outlines_perm (x : Exclusions) (h : u.Reordered u') :
    ((u.occurrences x).map Declaration.outline).Perm ((u'.occurrences x).map Declaration.outline) :=
  TypesReordered.outlines_perm x h

theorem Reordered.symbols_perm (x : Exclusions) (h : u.Reordered u') :
    (u.symbols x).Perm (u'.symbols x) := by
  have hmap := (h.outlines_perm x).map (·.member.symbol)
  rwa [List.map_map, List.map_map] at hmap

/-- A file whose member symbols are distinct has the same declared tags and the same broken
obligations in whatever order its types and their members are listed, as long as no override chain
leads from a member back to it. -/
theorem declaredTags_reordered (u u' : SourceUnit) (policy : CallPolicy) (o : Outside)
    (h : u.Reordered u') (hn : (u.symbols o.exclusions).Nodup)
    (hac : (u.hierarchy o).MembersAcyclic) :
    (u'.declaredTags policy o).tags = (u.declaredTags policy o).tags ∧
      (u'.declaredTags policy o).findings.Perm (u.declaredTags policy o).findings := by
  have hn' : (u'.symbols o.exclusions).Nodup :=
    (h.symbols_perm o.exclusions).nodup_iff.1 hn
  have hsame : Resolver.SameOutlines ⟨policy, u.roster o.exclusions, o⟩
      ⟨policy, u'.roster o.exclusions, o⟩ := by
    refine ⟨rfl, rfl, ?_, nodup_roster_symbols o.exclusions u⟩
    rw [declarations_roster _ u hn, declarations_roster _ u' hn']
    exact h.outlines_perm o.exclusions
  rw [← hierarchy_resolver u policy o] at hac
  exact ⟨SymbolMap.ext_get? (hsame.settleAll_get? hac), hsame.findings_perm hac⟩

/-- No chain leads back to a member when symbols can be ranked so that every member stands above what
it overrides, and no other symbol below. -/
theorem membersAcyclic_of_rank (rank : Symbol → Nat)
    (h : ∀ s ∈ (u.roster o.exclusions).symbols ++ o.host.keys, ∀ p ∈ (u.hierarchy o).supers s,
      rank p + ((u.hierarchy o).member? s).isSome.toNat ≤ rank s) :
    (u.hierarchy o).MembersAcyclic := by
  have hle : ∀ s p, (u.hierarchy o).Follows s p →
      rank p + ((u.hierarchy o).member? s).isSome.toNat ≤ rank s := fun s p hsp =>
    have hover := Hierarchy.overridden_of_follows hsp
    h s (mem_of_overridden hover) p hover
  have hdown : ∀ s p, Relation.ReflTransGen (u.hierarchy o).Follows s p → rank p ≤ rank s := by
    intro s p hsp
    induction hsp with
    | refl => exact le_rfl
    | tail _ hstep ih => exact (Nat.le_of_add_right_le (hle _ _ hstep)).trans ih
  intro s hs hloop
  obtain ⟨p, hsp, hps⟩ := Relation.TransGen.head'_iff.1 hloop
  have hlt := hle s p hsp
  rw [hs, Bool.toNat_true] at hlt
  exact Nat.lt_irrefl _ (Nat.lt_of_lt_of_le hlt (hdown p s hps))

/-- The task of a window that saves in the background. -/
def taskMembers : List Member := [
  { symbol := ⟨"app.Window$1#run()"⟩, kind := .method, overrides := [⟨"lib.Task#run()"⟩] },
  { symbol := ⟨"app.Window$1#save()"⟩, kind := .method, overrides := [⟨"app.View#save()"⟩] }]

/-- A window that overrides the method of a view, with a task in its body. -/
def windowType (taskMembers : List Member) : TypeDef :=
  { name := "app.Window", members := [
    { symbol := ⟨"app.Window#save()"⟩, kind := .method, tag := some { tag := .worker },
      overrides := [⟨"app.View#save()"⟩],
      body := [.anonymous { name := "app.Window$1", members := taskMembers }] }] }

/-- A view whose method overrides one of the library. -/
def viewType : TypeDef :=
  { name := "app.View", tag := some { tag := .swing }, members := [
    { symbol := ⟨"app.View#save()"⟩, kind := .method, overrides := [⟨"lib.Task#run()"⟩] }] }

/-- Two library methods that claim to override each other. -/
def libraryLoop : Outside where
  exclusions := {}
  store := .empty
  host := SymbolMap.ofList [(⟨"lib.Job#run()"⟩, { overrides := [⟨"lib.Task#run()"⟩] }),
    (⟨"lib.Task#run()"⟩, { overrides := [⟨"lib.Job#run()"⟩] })]

/-- Listed from the window down or from the view down, the window does its work in the background and
so does not honour the view. -/
theorem declaredTags_reordered_window :
    let u : SourceUnit := { path := "Window.java", types := [windowType taskMembers, viewType] }
    let u' : SourceUnit :=
      { path := "View.java", types := [viewType, windowType taskMembers.reverse] }
    (u'.declaredTags .standard libraryLoop).tags = (u.declaredTags .standard libraryLoop).tags ∧
      (u.declaredTags .standard libraryLoop).tags.get? ⟨"app.Window$1#save()"⟩ =
        some ⟨.swing, .inherited⟩ ∧
      (u'.declaredTags .standard libraryLoop).findings.length = 1 := by
  intro u u'
  have htypes : (windowType taskMembers).Reordered (windowType taskMembers.reverse) :=
    .mk _ _ _ (.cons (.mk _ _ _ _ _ _ (.cons (.anonymous (.mk _ _ _ (.swap _ _ _))) .nil)) .nil)
  have hreordered : u.Reordered u' := .trans (.cons htypes (TypesReordered.refl _)) (.swap _ _ _)
  have hac : (u.hierarchy libraryLoop).MembersAcyclic :=
    membersAcyclic_of_rank (fun s => if s.owner = "app.View" then 1
      else if s.owner = "app.Window" ∨ s.owner = "app.Window$1" then 2 else 0) (by decide)
  obtain ⟨htags, hfindings⟩ :=
    declaredTags_reordered u u' .standard libraryLoop hreordered (by decide) hac
  exact ⟨htags, by decide, hfindings.length_eq.trans (by decide)⟩

/-- A task and a window that claim to override each other, without annotations on their methods. -/
def entangledTypes : List TypeDef := [
  { name := "app.Task", tag := some { tag := .worker }, members := [
    { symbol := ⟨"app.Task#run()"⟩, kind := .method, overrides := [⟨"app.Window#run()"⟩] }] },
  { name := "app.Window", tag := some { tag := .swing }, members := [
    { symbol := ⟨"app.Window#run()"⟩, kind := .method, overrides := [⟨"app.Task#run()"⟩] }] }]

/-- Around a loop the member that is listed first inherits from the other one. -/
theorem declaredTags_reordered_loop :
    let u : SourceUnit := { path := "Loop.java", types := entangledTypes }
    let u' : SourceUnit := { path := "Loop.java", types := entangledTypes.reverse }
    u.Reordered u' ∧ (u.symbols {}).Nodup ∧
      (u.declaredTags .standard ⟨{}, {}, {}⟩).tags.get? ⟨"app.Task#run()"⟩ =
        some ⟨.swing, .inherited⟩ ∧
      (u'.declaredTags .standard ⟨{}, {}, {}⟩).tags.get? ⟨"app.Task#run()"⟩ =
        some ⟨.worker, .typeLevel⟩ :=
  ⟨.swap _ _ _, by decide, by decide, by decide⟩

end SourceUnit

end ThreadAffinity
