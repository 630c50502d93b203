import ThreadAffinity.Proofs.PlainTags

/-!
Safety under dynamic dispatch.

A call through an overridden member may run any member that overrides it. The search for declared
tags compares a member only with the members that it overrides directly. When calls that are legal
one after another are legal at once, that is enough: in a file without findings a caller who may call
a member may call everything below it (`overrides_honour_callers`). -/

namespace ThreadAffinity

/-- Whether two legal calls in a row make a legal call. -/
def CallPolicy.Transitive (p : CallPolicy) : Prop :=
  ∀ a b c, p.permits a b = true → p.permits b c = true → p.permits a c = true

theorem CallPolicy.transitive_of_all {p : CallPolicy}
    (h : ∀ a ∈ Tag.all, ∀ b ∈ Tag.all, ∀ c ∈ Tag.all,
      p.permits a b = true → p.permits b c = true → p.permits a c = true) : p.Transitive :=
  fun a b c => h a a.mem_all b b.mem_all c c.mem_all

theorem CallPolicy.strict_transitive : strict.Transitive := transitive_of_all (by decide)

theorem CallPolicy.standard_transitive : standard.Transitive := transitive_of_all (by decide)

namespace SourceUnit

variable {u : SourceUnit} {o : Outside} {policy : CallPolicy}

/-- Whether a member of the file overrides another one directly. -/
def Overrides (u : SourceUnit) (x : Exclusions) (m p : Symbol) : Prop :=
  ∃ d, u.member? x m = some d ∧ p ∈ d.member.overrides ∧ (u.member? x p).isSome

/-- Without findings and waivers each overridden tag is passed on or may call what replaces it. -/
theorem exists_tag_of_overrides (h : (u.hierarchy o).Acyclic)
    (hclean : (u.declaredTags policy o).findings = [])
    (hwaives : ∀ s d, u.member? o.exclusions s = some d → d.waives = false) {m p : Symbol}
    {t : SourcedTag} (hm : u.Overrides o.exclusions m p)
    (hp : (u.declaredTags policy o).tags.get? p = some t) :
    ∃ t', (u.declaredTags policy o).tags.get? m = some t' ∧ policy.permits t.tag t'.tag = true := by
  obtain ⟨d, hd, hmem, hin⟩ := hm
  have wf := wellFounded_of_acyclic h
  obtain ⟨htags, hfindings⟩ := declaredTags_plain policy h wf
  obtain ⟨e, he⟩ := Option.isSome_iff_exists.1 hin
  have htag : (u.hierarchy o).tag wf p = some t.tag := by
    rw [← Hierarchy.declaredTag_map wf he, ← htags p, hp]
    rfl
  -- some overridden member has a tag, so the member itself ends up with one
  obtain ⟨t', ht'⟩ : ∃ t', (u.hierarchy o).declaredTag wf m = some t' := by
    rw [Hierarchy.declaredTag_of_member wf hd]
    cases hfirst : d.member.overrides.findSome? ((u.hierarchy o).tag wf) with
    | none => simp [List.findSome?_eq_none_iff.1 hfirst p hmem] at htag
    | some first => rcases hw : d.member.tag with _ | written <;> simp [Declaration.resolve, hw]
  refine ⟨t', (htags m).trans ht', ?_⟩
  -- were it not callable from there, the pair would be among the findings
  by_contra hpermits
  have hsym : d.member.symbol = m :=
    Roster.symbol_of_find? ((find?_roster o.exclusions u m).trans hd)
  have hroster : d ∈ (u.roster o.exclusions).declarations :=
    (mem_roster_iff o.exclusions u).2 (hsym ▸ hd)
  have hconflict : (⟨.conflictingOverride d.member.symbol p t'.tag t.tag, d.member.span⟩ : Finding) ∈
      (u.hierarchy o).conflicts wf policy d := by
    simp only [Hierarchy.conflicts, hsym, ht', hwaives m d hd, Bool.false_eq_true, if_false,
      List.mem_filterMap]
    exact ⟨p, hmem, by simp [htag, hpermits]⟩
  rw [hclean] at hfindings
  have hnil := List.nil_perm.1 hfindings
  exact absurd (List.mem_flatMap.2 ⟨d, hroster, hconflict⟩) (by simp [hnil])

/-- Under a transitive policy, such as the strict and the standard one, a file with an acyclic
hierarchy, no findings and no waivers is safe to call through overridden members: whoever may call a
member may call every member of the file that overrides it, over any number of steps. -/
theorem overrides_honour_callers :
    CallPolicy.strict.Transitive ∧ CallPolicy.standard.Transitive ∧
      ∀ (policy : CallPolicy) (u : SourceUnit) (o : Outside), policy.Transitive →
        (u.hierarchy o).Acyclic → (u.declaredTags policy o).findings = [] →
        (∀ s d, u.member? o.exclusions s = some d → d.waives = false) →
        ∀ (m a : Symbol) (t : SourcedTag), Relation.TransGen (u.Overrides o.exclusions) m a →
          (u.declaredTags policy o).tags.get? a = some t →
          ∃ t', (u.declaredTags policy o).tags.get? m = some t' ∧
            ∀ x, policy.permits x t.tag = true → policy.permits x t'.tag = true := by
  refine ⟨CallPolicy.strict_transitive, CallPolicy.standard_transitive, ?_⟩
  intro policy u o htrans hacyclic hclean hwaives m a t hchain
  induction hchain generalizing t with
  | single hstep =>
    intro ha
    obtain ⟨t', ht', hpermits⟩ := exists_tag_of_overrides hacyclic hclean hwaives hstep ha
    exact ⟨t', ht', fun x hx => htrans x t.tag t'.tag hx hpermits⟩
  | tail _ hstep ih =>
    intro ha
    obtain ⟨t', ht', hpermits⟩ := exists_tag_of_overrides hacyclic hclean hwaives hstep ha
    obtain ⟨t'', ht'', hcallers⟩ := ih t' ht'
    exact ⟨t'', ht'', fun x hx => hcallers x (htrans x t.tag t'.tag hx hpermits)⟩

/-- Three types above one another: the method in the middle inherits, the lowest one is annotated. -/
def ladder : SourceUnit where
  path := "Ladder.java"
  types := [
    { name := "app.Low", members := [
      { symbol := ⟨"app.Low#show()"⟩, kind := .method, tag := some { tag := .any },
        overrides := [⟨"app.Mid#show()"⟩] }] },
    { name := "app.Mid", members := [
      { symbol := ⟨"app.Mid#show()"⟩, kind := .method, overrides := [⟨"app.Top#show()"⟩] }] },
    { name := "app.Top", tag := some { tag := .fx }, members := [
      { symbol := ⟨"app.Top#show()"⟩, kind := .method }] }]

theorem overrides_honour_callers_ladder :
    ∃ t', (ladder.declaredTags .standard ⟨{}, {}, {}⟩).tags.get? ⟨"app.Low#show()"⟩ = some t' ∧
      ∀ x, CallPolicy.standard.permits x .fx = true →
        CallPolicy.standard.permits x t'.tag = true := by
  have hacyclic : (ladder.hierarchy ⟨{}, {}, {}⟩).Acyclic :=
    acyclic_of_rank [⟨"app.Top#show()"⟩, ⟨"app.Mid#show()"⟩, ⟨"app.Low#show()"⟩].idxOf (by decide)
  have hwaives : ∀ s d, ladder.member? {} s = some d → d.waives = false := fun s d hd =>
    (by decide : ∀ d ∈ ladder.occurrences {}, d.waives = false) d (List.mem_of_find?_eq_some hd)
  have hlow : ladder.Overrides {} ⟨"app.Low#show()"⟩ ⟨"app.Mid#show()"⟩ :=
    ⟨_, rfl, List.mem_cons_self, rfl⟩
  have hmid : ladder.Overrides {} ⟨"app.Mid#show()"⟩ ⟨"app.Top#show()"⟩ :=
    ⟨_, rfl, List.mem_cons_self, rfl⟩
  exact overrides_honour_callers.2.2 .standard ladder ⟨{}, {}, {}⟩ CallPolicy.standard_transitive
    hacyclic (by decide) hwaives _ _ ⟨.fx, .typeLevel⟩ (.tail (.single hlow) hmid) (by decide)

end SourceUnit

end ThreadAffinity
