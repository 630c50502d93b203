import ThreadAffinity.Proofs.EveryMember
import ThreadAffinity.Proofs.Exports
import ThreadAffinity.Proofs.Recheck

/-!
What a check leaves in the store.

A file's publications are its exports, each once, with the effective tag that its report gives. So
after a check an open store has these tags, has its old ones for all other symbols, and has counted
one publication for each export; a sealed store has only counted what it turned away
(`Checker.check_publishes`). An exported member belongs to a top-level type, so its tag goes back to
an annotation or was assumed. It was never read off surroundings. -/

namespace ThreadAffinity

/-- A member of a top-level type has its declared tag, or the universal one is assumed for it. -/
theorem PlacedMember.tag_topLevel {n : PlacedMember} (h : n.isTopLevel = true) (declared : TagMap) :
    n.tag declared = (declared.get? n.symbol).getD ⟨.any, .assumed⟩ := by
  obtain ⟨_ | _ | _, m⟩ := n
  · rfl
  · cases h
  · cases h

namespace SourceUnit

variable {u : SourceUnit} {x : Exclusions} {declared : TagMap} {advise : Bool} {s : Symbol}

/-- What is exported has the tag of a member of a top-level type. -/
theorem exists_topLevel_of_exported (h : s ∈ (u.effectiveTags x declared advise).exported) :
    ∃ n : PlacedMember, n.isTopLevel = true ∧
      (u.effectiveTags x declared advise).tags.get? s = some (n.tag declared) := by
  rw [exported_eq_eraseDups] at h
  obtain ⟨n, hfind, hexported⟩ := (Option.any_eq_true ..).1 (List.mem_filter.1 h).2
  refine ⟨n, (Bool.and_eq_true_iff.1 hexported).1, ?_⟩
  rw [get?_effectiveTags, hfind, Option.map_some]

end SourceUnit

namespace Checker

/-- Each symbol that a walk exports and gives a tag is published once. -/
theorem publications_symbols {e : EffectiveTags}
    (h : ∀ s ∈ e.exported, ∃ t, e.tags.get? s = some t) :
    (publications e).map (·.1) = e.exported := by
  have hsome : ∀ s ∈ e.exported, ((e.tags.get? s).map (s, ·)).map Prod.fst = some s := by
    intro s hs
    obtain ⟨t, ht⟩ := h s hs
    rw [ht]
    rfl
  rw [publications, List.map_filterMap, List.filterMap_congr hsome, List.filterMap_some]

variable {c : Checker} {u : SourceUnit} {host : HostTable} {b : Build} {s : Symbol}

/-- What is published goes back to an annotation or was assumed. -/
theorem origin_of_exported (h : s ∈ (c.effectiveTags u host b).exported) :
    ∃ t, (c.effectiveTags u host b).tags.get? s = some t ∧
      t.origin ∈ [.explicit, .inherited, .typeLevel, .assumed] ∧
      (t.origin = .assumed → t.tag = .any) := by
  obtain ⟨n, htop, ht⟩ := SourceUnit.exists_topLevel_of_exported h
  refine ⟨_, ht, ?_⟩
  rw [n.tag_topLevel htop]
  cases hdeclared : (c.declaredTags u host b).tags.get? n.symbol with
  | none => simp
  | some t =>
    have horigin := (SourceUnit.declaredTags_get? hdeclared).1
    rw [Option.getD_some]
    cases ho : t.origin <;> simp_all [Origin.isDeclared]

/-- After a check an open store holds what the report says of the symbols that the file exports, and
what it held before of all others, and it has counted one publication for each export. A sealed store
is the same but for the publications that it counts as turned away. Neither is opened or sealed. What
is published goes back to an annotation, or it is the universal tag that was assumed. -/
theorem check_publishes (c : Checker) (u : SourceUnit) (host : HostTable) (b : Build) :
    let tags := (c.check u host b).result.tags
    let store := (c.check u host b).build.store
    ∃ exports : List Symbol, exports.Nodup ∧ (∀ s, s ∈ exports ↔ u.Exports c.exclusions s) ∧
      (b.store.isSealed = false →
        (∀ s ∈ exports, store.get? s = tags.get? s) ∧
          (∀ s, s ∉ exports → store.get? s = b.store.get? s) ∧
          store.writes = b.store.writes + exports.length ∧ store.rejected = b.store.rejected) ∧
      (b.store.isSealed = true →
        store.tags = b.store.tags ∧ store.writes = b.store.writes ∧
          store.rejected = b.store.rejected + exports.length) ∧
      store.isSealed = b.store.isSealed ∧
      ∀ s ∈ exports, ∃ t, tags.get? s = some t ∧
        t.origin ∈ [.explicit, .inherited, .typeLevel, .assumed] ∧
        (t.origin = .assumed → t.tag = .any) := by
  intro tags store
  have htagged : ∀ s ∈ (c.effectiveTags u host b).exported, ∃ t, tags.get? s = some t := fun s hs =>
    (origin_of_exported hs).imp fun _ h => h.1
  have hlength : (publications (c.effectiveTags u host b)).length =
      (c.effectiveTags u host b).exported.length := by
    rw [← publications_symbols htagged, List.length_map]
  obtain ⟨hwrites, hrejected⟩ :=
    TagStore.counts_publishAll (publications (c.effectiveTags u host b)) b.store
  rw [hlength] at hwrites hrejected
  refine ⟨(c.effectiveTags u host b).exported, nodup_exportsOf _ _,
    fun s => SourceUnit.mem_exported_iff, fun hopen => ⟨fun s hs => ?_, fun s hs => ?_, ?_, ?_⟩,
    fun hsealed => ⟨?_, ?_, ?_⟩, TagStore.isSealed_publishAll _ _, fun s hs => origin_of_exported hs⟩
  · obtain ⟨t, ht⟩ := htagged s hs
    exact (store_get?_of_exported hopen hs ht).trans ht.symm
  · exact store_get?_of_not_exported hs
  · exact hwrites.trans (by rw [hopen]; rfl)
  · exact hrejected.trans (by rw [hopen]; rfl)
  · exact (TagStore.tags_publishAll _ _).trans (if_pos hsealed)
  · exact hwrites.trans (by rw [hsealed]; rfl)
  · exact hrejected.trans (by rw [hsealed]; rfl)

/-- A symbol whose first member is private and one whose first member belongs to an anonymous class
are not exported, though both come again among the members of the type. -/
example :
    let method (s : String) (visibility : Visibility) (body : List Expr) : Member :=
      { symbol := ⟨s⟩, kind := .method, visibility, body }
    let u : SourceUnit := ⟨"Panel.java", "app", [{ name := "app.Panel", members := [
      method "app.Panel#hide()" .priv [], method "app.Panel#hide()" .pub [],
      method "app.Panel#show()" .pub
        [.anonymous { name := "app.Panel$1", members := [method "app.Panel#paint()" .pub []] }],
      method "app.Panel#paint()" .pub []] }]⟩
    let store := (plain.check u .empty {}).build.store
    store.tags.entries = [(⟨"app.Panel#show()"⟩, ⟨.any, .assumed⟩)] ∧ store.writes = 1 := by
  decide

end Checker

end ThreadAffinity
