import ThreadAffinity.Proofs.DeclarationOrder
import ThreadAffinity.Proofs.Report

/-!
What a check reads of a file besides its call sites.

The search for declared tags goes by the declarations of a file and does not look into their bodies
(`Resolver.settleAll_outline`). Of what the walk meets, tags, exports, lambdas and advisories are
drawn from the members and lambdas, again without a look into bodies (`visitOutlines`). So two files
in which a reader meets the same but for bodies, and the walk the same but for bodies and call sites
(`SourceUnit.SameShape`), differ in nothing but their illegal calls and the tally. -/

namespace ThreadAffinity

/-! ### Declared tags -/

namespace Roster

/-- The roster without the bodies of its members. -/
def outline (r : Roster) : Roster := ⟨r.declarations.map Declaration.outline⟩

variable (r : Roster)

@[simp]
theorem find?_outline (s : Symbol) : r.outline.find? s = (r.find? s).map Declaration.outline :=
  List.find?_map ..

@[simp]
theorem contains_outline (s : Symbol) : r.outline.contains s = r.contains s := by
  rw [contains, find?_outline, Option.isSome_map, contains]

@[simp]
theorem symbols_outline : r.outline.symbols = r.symbols := r.symbols_eq_outlines.symm

@[simp]
theorem size_outline : r.outline.size = r.size := List.length_map _

theorem outline_add (d : Declaration) : (r.add d).outline = r.outline.add d.outline := by
  have hsymbol : d.outline.member.symbol = d.member.symbol := rfl
  rw [add, add, hsymbol, contains_outline]
  split
  · rfl
  · simp [outline]

/-- The outline of a roster follows from the outlines of the declarations that are sighted. -/
theorem outline_meetAll : ∀ (ss : List Sighting) (r : Roster),
    (r.meetAll ss).1.outline = (outlines ss).foldl add r.outline
  | [], _ => rfl
  | .excluded _ :: ss, r => outline_meetAll ss r
  | .declared d :: ss, r => by
    rw [outlines_declared, List.foldl_cons, ← outline_add]
    exact outline_meetAll ss (r.add d)

end Roster

namespace Resolver

variable (r : Resolver)

/-- The search through a roster without bodies. -/
def outline : Resolver := { r with roster := r.roster.outline }

theorem settle_outline : ∀ (n : Nat) (s : Symbol) (σ : Search),
    r.outline.settle n s σ = r.settle n s σ
  | 0, _, _ => rfl
  | n + 1, s, σ => by
    have hone : r.outline.overriddenTag (r.outline.settle n) = r.overriddenTag (r.settle n) := by
      funext p τ
      rw [overriddenTag, overriddenTag, settle_outline n p τ, outline, Roster.contains_outline]
    rw [settle, settle, hone, outline, Roster.find?_outline]
    cases r.roster.find? s <;> rfl

/-- A search does not look into the bodies of declarations. -/
theorem settleAll_outline : r.outline.settleAll = r.settleAll := by
  have hnext : r.outline.settleNext = r.settleNext := by
    funext state s
    rw [settleNext, settleNext, settle_outline, depth, depth, outline, Roster.size_outline]
  rw [settleAll, settleAll, hnext, outline, Roster.symbols_outline]

end Resolver

/-! ### Effective tags -/

attribute [ext] EffectiveTags

theorem SourceUnit.log_effectiveTags (u : SourceUnit) (x : Exclusions) (declared : TagMap)
    (advise : Bool) : (u.effectiveTags x declared advise).log =
      [.effectiveInferred u.path (u.effectiveTags x declared advise).tags.size
        (u.effectiveTags x declared advise).lambdas.length
        (u.effectiveTags x declared advise).sites.length] := rfl

/-- A member without its body. -/
def Member.outline (m : Member) : Member := { m with body := [] }

namespace Visit

/-- A visit to a member, without the member's body, or to a lambda. -/
def outline? : Visit → Option Visit
  | topLevel m tag => some (topLevel m.outline tag)
  | nested m tag => some (nested m.outline tag)
  | lambda body => some (lambda body)
  | site _ => none

theorem member?_outline (v : Visit) :
    v.outline?.bind member? = v.member?.map fun e => (e.1.outline, e.2) := by
  cases v <;> rfl

end Visit

/-- What the walk meets besides call sites, without the bodies of members. -/
def visitOutlines (vs : List Visit) : List Visit := vs.filterMap Visit.outline?

@[simp]
theorem visitOutlines_nil : visitOutlines [] = [] := rfl

section

variable (m : Member) (tag : SourcedTag) (vs : List Visit)

@[simp]
theorem visitOutlines_topLevel :
    visitOutlines (.topLevel m tag :: vs) = .topLevel m.outline tag :: visitOutlines vs := rfl

@[simp]
theorem visitOutlines_nested :
    visitOutlines (.nested m tag :: vs) = .nested m.outline tag :: visitOutlines vs := rfl

@[simp]
theorem visitOutlines_lambda (body : LambdaBody) :
    visitOutlines (.lambda body :: vs) = .lambda body :: visitOutlines vs := rfl

@[simp]
theorem visitOutlines_site (site : CallSite) :
    visitOutlines (.site site :: vs) = visitOutlines vs := rfl

end

@[simp]
theorem visitOutlines_append (vs ws : List Visit) :
    visitOutlines (vs ++ ws) = visitOutlines vs ++ visitOutlines ws :=
  List.filterMap_append ..

theorem filterMap_visitOutlines {α : Type} {f : Visit → Option α}
    (hf : ∀ v, v.outline?.bind f = f v) (vs : List Visit) :
    (visitOutlines vs).filterMap f = vs.filterMap f := by
  rw [visitOutlines, List.filterMap_filterMap]
  exact List.filterMap_congr fun v _ => hf v

theorem tagsOf_visitOutlines (vs : List Visit) : tagsOf (visitOutlines vs) = tagsOf vs := by
  have hmembers : (visitOutlines vs).filterMap Visit.member? =
      (vs.filterMap Visit.member?).map fun e => (e.1.outline, e.2) := by
    rw [visitOutlines, List.filterMap_filterMap, List.map_filterMap]
    exact List.filterMap_congr fun v _ => v.member?_outline
  rw [tagsOf, hmembers, List.foldl_map]
  rfl

theorem exportsOf_visitOutlines : ∀ (vs : List Visit) (seen : List Symbol),
    exportsOf seen (visitOutlines vs) = exportsOf seen vs
  | [], _ => rfl
  | .site _ :: vs, seen | .lambda _ :: vs, seen => exportsOf_visitOutlines vs seen
  | .topLevel m tag :: vs, seen | .nested m tag :: vs, seen => by
    simp only [visitOutlines_topLevel, visitOutlines_nested, exportsOf, Visit.member?,
      exportsOf_visitOutlines vs]
    rfl

/-! ### Files of the same shape -/

namespace SourceUnit

variable {x : Exclusions} {u u' : SourceUnit}

/-- A reader meets the same declarations in two files, but for their bodies, and the walk meets the
same members and lambdas. -/
structure SameShape (x : Exclusions) (u u' : SourceUnit) : Prop where
  sightings : outlines (u'.sightings x) = outlines (u.sightings x)
  visits : ∀ declared, visitOutlines (u'.visits x declared) = visitOutlines (u.visits x declared)

theorem SameShape.declaredTags {policy : CallPolicy} {o : Outside}
    (h : SameShape o.exclusions u u') :
    (u'.declaredTags policy o).tags = (u.declaredTags policy o).tags ∧
      (u'.declaredTags policy o).findings = (u.declaredTags policy o).findings := by
  have hroster : (u'.roster o.exclusions).outline = (u.roster o.exclusions).outline := by
    rw [roster, roster, Roster.outline_meetAll, Roster.outline_meetAll, h.sightings]
  have hall : Resolver.settleAll ⟨policy, u'.roster o.exclusions, o⟩ =
      Resolver.settleAll ⟨policy, u.roster o.exclusions, o⟩ := by
    rw [← Resolver.settleAll_outline, ← Resolver.settleAll_outline ⟨policy, u.roster _, o⟩]
    exact congrArg (fun r => Resolver.settleAll ⟨policy, r, o⟩) hroster
  exact ⟨congrArg Prod.fst hall, congrArg (·.2.findings) hall⟩

theorem SameShape.effectiveTags (h : SameShape x u u') (declared : TagMap) (advise : Bool) :
    (u'.effectiveTags x declared advise).tags = (u.effectiveTags x declared advise).tags ∧
      (u'.effectiveTags x declared advise).exported =
        (u.effectiveTags x declared advise).exported ∧
      (u'.effectiveTags x declared advise).lambdas = (u.effectiveTags x declared advise).lambdas ∧
      (u'.effectiveTags x declared advise).findings =
        (u.effectiveTags x declared advise).findings := by
  have hvisits := h.visits declared
  have hpick : ∀ {α : Type} (f : Visit → Option α), (∀ v, v.outline?.bind f = f v) →
      (u'.visits x declared).filterMap f = (u.visits x declared).filterMap f := by
    intro α f hf
    rw [← filterMap_visitOutlines hf, hvisits, filterMap_visitOutlines hf]
  refine ⟨?_, ?_, hpick Visit.lambda? fun v => by cases v <;> rfl, ?_⟩
  · change tagsOf _ = tagsOf _
    rw [← tagsOf_visitOutlines, hvisits, tagsOf_visitOutlines]
  · change exportsOf [] _ = exportsOf [] _
    rw [← exportsOf_visitOutlines, hvisits, exportsOf_visitOutlines]
  · cases advise with
    | true => exact hpick (Visit.advisory? declared) fun v => by cases v <;> rfl
    | false => rfl

end SourceUnit

namespace Checker

variable {c : Checker} {u u' : SourceUnit}

theorem declaredTags_of_sameShape (h : u.SameShape c.exclusions u') (host : HostTable) (b : Build) :
    (c.declaredTags u' host b).tags = (c.declaredTags u host b).tags ∧
      (c.declaredTags u' host b).findings = (c.declaredTags u host b).findings :=
  SourceUnit.SameShape.declaredTags (o := c.outside b.store host) h

theorem effectiveTags_of_sameShape (h : u.SameShape c.exclusions u') (host : HostTable)
    (b : Build) :
    (c.effectiveTags u' host b).tags = (c.effectiveTags u host b).tags ∧
      (c.effectiveTags u' host b).exported = (c.effectiveTags u host b).exported ∧
      (c.effectiveTags u' host b).lambdas = (c.effectiveTags u host b).lambdas ∧
      (c.effectiveTags u' host b).findings = (c.effectiveTags u host b).findings := by
  rw [Checker.effectiveTags, Checker.effectiveTags, (declaredTags_of_sameShape h host b).1]
  exact h.effectiveTags _ _

/-- Files of the same shape leave the same store and the same listing behind. -/
theorem build_of_sameShape (h : u.SameShape c.exclusions u') (host : HostTable) (b : Build) :
    (c.check u' host b).build = (c.check u host b).build := by
  obtain ⟨htags, hexported, -, -⟩ := effectiveTags_of_sameShape h host b
  rw [check_build, check_build, publications, publications, htags, hexported]

end Checker

end ThreadAffinity
