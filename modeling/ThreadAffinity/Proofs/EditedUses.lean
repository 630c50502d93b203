import ThreadAffinity.Proofs.Outlines

/-!
Uses do not feed into tags.

The bodies of a file may be edited: uses of other declarations are inserted, deleted and changed at
any depth, in lambdas and in anonymous classes (`SourceUnit.UsesEdited`). A reader who draws up the
roster passes uses by, and the walk makes nothing but call sites of them, so the edited file is of
the same shape. Whatever calls it makes, its tags, its publications and all findings but its illegal
calls are those of the file before (`Checker.check_edited`). -/

namespace ThreadAffinity

/-! ### Edited files -/

mutual

/-- An expression with the uses in it edited. -/
inductive Expr.UsesEdited : Expr → Expr → Prop
  | change (how how' : Use) (target target' : Option Symbol) (span span' : Span) :
    Expr.UsesEdited (.use how target span) (.use how' target' span')
  | lambda (context : Option Tag) (span : Span) {body body' : List Expr} :
    BodyUsesEdited body body' →
      Expr.UsesEdited (.lambda context body span) (.lambda context body' span)
  | anonymous {type type' : TypeDef} :
    TypeDef.UsesEdited type type' → Expr.UsesEdited (.anonymous type) (.anonymous type')
  | block {body body' : List Expr} :
    BodyUsesEdited body body' → Expr.UsesEdited (.block body) (.block body')

/-- A body with the uses in it edited, and with uses that are new or gone. -/
inductive BodyUsesEdited : List Expr → List Expr → Prop
  | nil : BodyUsesEdited [] []
  | cons {e e' : Expr} {es es' : List Expr} :
    Expr.UsesEdited e e' → BodyUsesEdited es es' → BodyUsesEdited (e :: es) (e' :: es')
  | insert (how : Use) (target : Option Symbol) (span : Span) {es es' : List Expr} :
    BodyUsesEdited es es' → BodyUsesEdited es (.use how target span :: es')
  | delete (how : Use) (target : Option Symbol) (span : Span) {es es' : List Expr} :
    BodyUsesEdited es es' → BodyUsesEdited (.use how target span :: es) es'

/-- A type with the uses in the bodies of its members edited. -/
inductive TypeDef.UsesEdited : TypeDef → TypeDef → Prop
  | mk (name : String) (tag : Option WrittenTag) (span : Span) {members members' : List Member} :
    MembersUsesEdited members members' →
      TypeDef.UsesEdited ⟨name, tag, members, span⟩ ⟨name, tag, members', span⟩

/-- Members with the uses in their bodies edited. -/
inductive MembersUsesEdited : List Member → List Member → Prop
  | nil : MembersUsesEdited [] []
  | cons {m m' : Member} {ms ms' : List Member} :
    Member.UsesEdited m m' → MembersUsesEdited ms ms' → MembersUsesEdited (m :: ms) (m' :: ms')

/-- A member with the uses in its body edited. -/
inductive Member.UsesEdited : Member → Member → Prop
  | mk (symbol : Symbol) (kind : MemberKind) (visibility : Visibility) (tag : Option WrittenTag)
    (overrides : List Symbol) (span : Span) {body body' : List Expr} :
    BodyUsesEdited body body' →
      Member.UsesEdited ⟨symbol, kind, visibility, tag, overrides, body, span⟩
        ⟨symbol, kind, visibility, tag, overrides, body', span⟩

end

/-- A file with the uses in its bodies edited. -/
structure SourceUnit.UsesEdited (u u' : SourceUnit) : Prop where
  path : u'.path = u.path
  package : u'.package = u.package
  types : List.Forall₂ TypeDef.UsesEdited u.types u'.types

section Shape

variable (x : Exclusions)

/-! ### What is sighted -/

mutual

theorem Expr.UsesEdited.sightings : ∀ {e e' : Expr}, e.UsesEdited e' →
    outlines (e'.sightings x) = outlines (e.sightings x)
  | _, _, .change .. => by rw [Expr.sightings, Expr.sightings]
  | _, _, .lambda _ _ h | _, _, .anonymous h | _, _, .block h => by
    rw [Expr.sightings, Expr.sightings, h.sightings]

theorem BodyUsesEdited.sightings : ∀ {es es' : List Expr}, BodyUsesEdited es es' →
    outlines (bodySightings x es') = outlines (bodySightings x es)
  | _, _, .nil => rfl
  | _, _, .cons h hs => by
    rw [bodySightings, bodySightings, outlines_append, outlines_append, h.sightings, hs.sightings]
  | _, _, .insert _ _ _ hs | _, _, .delete _ _ _ hs => by
    rw [bodySightings, Expr.sightings, List.nil_append, hs.sightings]

theorem TypeDef.UsesEdited.sightings : ∀ {t t' : TypeDef}, t.UsesEdited t' →
    outlines (t'.sightings x) = outlines (t.sightings x)
  | _, _, .mk name tag span h => by
    rw [TypeDef.sightings, TypeDef.sightings]
    split
    case isTrue => rfl
    case isFalse => exact h.sightings _

theorem MembersUsesEdited.sightings (typeTag : Option Tag) : ∀ {ms ms' : List Member},
    MembersUsesEdited ms ms' →
      outlines (memberSightings x typeTag ms') = outlines (memberSightings x typeTag ms)
  | _, _, .nil => rfl
  | _, _, .cons h hs => by
    rw [memberSightings, memberSightings, outlines_append, outlines_append, h.sightings,
      hs.sightings]

theorem Member.UsesEdited.sightings (typeTag : Option Tag) : ∀ {m m' : Member}, m.UsesEdited m' →
    outlines (m'.sightings x typeTag) = outlines (m.sightings x typeTag)
  | _, _, .mk _ _ _ _ _ _ h => by
    rw [Member.sightings, Member.sightings, outlines_declared, outlines_declared, h.sightings]
    rfl

end

/-! ### What the walk meets -/

variable (declared : TagMap)

mutual

theorem Expr.UsesEdited.visits (c : Scope) : ∀ {e e' : Expr}, e.UsesEdited e' →
    visitOutlines (e'.visits x declared c) = visitOutlines (e.visits x declared c)
  | _, _, .change .. => by
    rw [Expr.visits, Expr.visits, visitOutlines_site, visitOutlines_site]
  | _, _, .lambda _ _ h => by
    rw [Expr.visits, Expr.visits, visitOutlines_lambda, visitOutlines_lambda, h.visits]
  | _, _, .anonymous h | _, _, .block h => by rw [Expr.visits, Expr.visits, h.visits]

theorem BodyUsesEdited.visits (c : Scope) : ∀ {es es' : List Expr}, BodyUsesEdited es es' →
    visitOutlines (bodyVisits x declared c es') = visitOutlines (bodyVisits x declared c es)
  | _, _, .nil => rfl
  | _, _, .cons h hs => by
    rw [bodyVisits, bodyVisits, visitOutlines_append, visitOutlines_append, h.visits, hs.visits]
  | _, _, .insert _ _ _ hs | _, _, .delete _ _ _ hs => by
    rw [bodyVisits, Expr.visits, List.singleton_append, visitOutlines_site, hs.visits]

theorem TypeDef.UsesEdited.visits (around : Tag) : ∀ {t t' : TypeDef}, t.UsesEdited t' →
    visitOutlines (t'.nestedVisits x declared around) =
      visitOutlines (t.nestedVisits x declared around)
  | _, _, .mk name tag span h => by
    rw [TypeDef.nestedVisits, TypeDef.nestedVisits]
    split
    case isTrue => rfl
    case isFalse => exact h.visits around

theorem MembersUsesEdited.visits (around : Tag) : ∀ {ms ms' : List Member},
    MembersUsesEdited ms ms' →
      visitOutlines (nestedMemberVisits x declared around ms') =
        visitOutlines (nestedMemberVisits x declared around ms)
  | _, _, .nil => rfl
  | _, _, .cons h hs => by
    rw [nestedMemberVisits, nestedMemberVisits, visitOutlines_append, visitOutlines_append,
      h.visits, hs.visits]

theorem Member.UsesEdited.visits (around : Tag) : ∀ {m m' : Member}, m.UsesEdited m' →
    visitOutlines (m'.nestedVisits x declared around) =
      visitOutlines (m.nestedVisits x declared around)
  | _, _, .mk _ _ _ _ _ _ h => by
    rw [Member.nestedVisits, Member.nestedVisits, visitOutlines_nested, visitOutlines_nested,
      h.visits]
    rfl

end

theorem MembersUsesEdited.topLevelVisits : ∀ {ms ms' : List Member}, MembersUsesEdited ms ms' →
    visitOutlines (ms'.flatMap (·.visits x declared)) =
      visitOutlines (ms.flatMap (·.visits x declared))
  | _, _, .nil => rfl
  | _, _, .cons (.mk _ _ _ _ _ _ h) hs => by
    rw [List.flatMap_cons, List.flatMap_cons, visitOutlines_append, visitOutlines_append,
      hs.topLevelVisits, Member.visits, Member.visits, visitOutlines_topLevel,
      visitOutlines_topLevel, h.visits]
    rfl

theorem TypeDef.UsesEdited.topLevelVisits : ∀ {t t' : TypeDef}, t.UsesEdited t' →
    visitOutlines (t'.visits x declared) = visitOutlines (t.visits x declared)
  | _, _, .mk name tag span h => by
    rw [TypeDef.visits, TypeDef.visits]
    split
    case isTrue => rfl
    case isFalse => exact h.topLevelVisits x declared

theorem sightings_of_usesEdited : ∀ {ts ts' : List TypeDef},
    List.Forall₂ TypeDef.UsesEdited ts ts' →
      outlines (ts'.flatMap (·.sightings x)) = outlines (ts.flatMap (·.sightings x))
  | _, _, .nil => rfl
  | _, _, .cons h hs => by
    rw [List.flatMap_cons, List.flatMap_cons, outlines_append, outlines_append, h.sightings,
      sightings_of_usesEdited hs]

theorem visits_of_usesEdited : ∀ {ts ts' : List TypeDef}, List.Forall₂ TypeDef.UsesEdited ts ts' →
    visitOutlines (ts'.flatMap (·.visits x declared)) =
      visitOutlines (ts.flatMap (·.visits x declared))
  | _, _, .nil => rfl
  | _, _, .cons h hs => by
    rw [List.flatMap_cons, List.flatMap_cons, visitOutlines_append, visitOutlines_append,
      h.topLevelVisits, visits_of_usesEdited hs]

end Shape

/-- An edited file is of the same shape. -/
theorem SourceUnit.UsesEdited.sameShape {u u' : SourceUnit} (h : u.UsesEdited u')
    (x : Exclusions) : u.SameShape x u' :=
  ⟨sightings_of_usesEdited x h.types, fun declared => visits_of_usesEdited x declared h.types⟩

/-! ### The edited file is checked -/

namespace Checker

/-- Whatever uses are inserted into the bodies of a file, deleted from them or changed, the file has
the same declared tags with the same broken obligations, the same advisories, the same effective tags
and lambdas, and the same exports; its check leaves the same store and the same listing; and its
report differs in illegal calls only. -/
theorem check_edited (c : Checker) (u u' : SourceUnit) (host : HostTable) (b : Build)
    (h : u.UsesEdited u') :
    (c.declaredTags u' host b).tags = (c.declaredTags u host b).tags ∧
      (c.declaredTags u' host b).findings = (c.declaredTags u host b).findings ∧
      (c.effectiveTags u' host b).findings = (c.effectiveTags u host b).findings ∧
      (c.effectiveTags u' host b).exported = (c.effectiveTags u host b).exported ∧
      (c.check u' host b).result.tags = (c.check u host b).result.tags ∧
      (c.check u' host b).result.lambdas = (c.check u host b).result.lambdas ∧
      (c.check u' host b).build = (c.check u host b).build ∧
      ((c.check u' host b).result.findings.filter fun f => !f.isIllegalCall) =
        (c.check u host b).result.findings.filter fun f => !f.isIllegalCall := by
  have hshape := h.sameShape c.exclusions
  obtain ⟨hdeclared, hconflicts⟩ := declaredTags_of_sameShape hshape host b
  obtain ⟨htags, hexported, hlambdas, hadvisories⟩ := effectiveTags_of_sameShape hshape host b
  refine ⟨hdeclared, hconflicts, hadvisories, hexported, htags, hlambdas,
    build_of_sameShape hshape host b, ?_⟩
  rw [otherFindings_eq, otherFindings_eq, hconflicts, hadvisories]

/-- A button whose press has a lambda and a task in its body. -/
def button (pressing waiting running : List Expr) : SourceUnit where
  path := "Button.java"
  types := [{ name := "app.Button", members := [
    { symbol := ⟨"app.Button#press()"⟩, kind := .method, span := ⟨1, 90⟩
      body := pressing ++ [.lambda (some .worker) waiting ⟨10, 30⟩,
        .anonymous { name := "app.Button$1", members := [
          { symbol := ⟨"app.Button$1#run()"⟩, kind := .method, visibility := .priv,
            body := running }] }] }] }]

/-- A use is deleted, one is changed to an illegal call, and one is inserted. -/
theorem check_edited_button :
    let u := button [.use .new (some ⟨"app.Icon#<init>()"⟩) ⟨5, 8⟩]
      [.use (.methodRef (some .any)) none ⟨12, 20⟩] []
    let u' := button [] [.use .call (some ⟨"lib.Window#show()"⟩) ⟨14, 21⟩]
      [.use .fieldAccess (some ⟨"app.Button#icon"⟩) ⟨40, 44⟩]
    let host : HostTable := SymbolMap.ofList [(⟨"lib.Window#show()"⟩, { tag := some .swing })]
    let c : Checker := ⟨{}, .standard, {}⟩
    u.UsesEdited u' ∧
      (c.check u host {}).result.findings.map (·.problem.code) = ["UnannotatedDefault"] ∧
      (c.check u' host {}).result.findings.map (·.problem.code) =
        ["UnannotatedDefault", "IllegalCrossThreadCall"] ∧
      (c.check u' host {}).result.tags = (c.check u host {}).result.tags ∧
      (c.check u' host {}).build = (c.check u host {}).build := by
  intro u u' host c
  have hedited : u.UsesEdited u' := by
    refine ⟨rfl, rfl, .cons (.mk _ _ _ (.cons (.mk _ _ _ _ _ _ ?_) .nil)) .nil⟩
    refine .delete _ _ _ (.cons (.lambda _ _ ?_) (.cons (.anonymous (.mk _ _ _ ?_)) .nil))
    · exact .cons (.change _ _ _ _ _ _) .nil
    · exact .cons (.mk _ _ _ _ _ _ (.insert _ _ _ .nil)) .nil
  obtain ⟨-, -, -, -, htags, -, hbuild, -⟩ := c.check_edited u u' host {} hedited
  exact ⟨hedited, by decide, by decide, htags, hbuild⟩

end Checker

end ThreadAffinity
