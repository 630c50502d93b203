import ThreadAffinity.Proofs.SymbolMaps
import ThreadAffinity.TagStore

/-!
What publishing does to a store.

An open store takes every publication in, a sealed one none. Either way it stays open or sealed, and
publishing the same tags once more changes none of its answers. -/

namespace ThreadAffinity

namespace TagStore

theorem isSealed_publishAll (ps : List (Symbol × SourcedTag)) (s : TagStore) :
    (s.publishAll ps).1.isSealed = s.isSealed := by
  change (ps.foldl (fun s t => s.publish t.1 t.2) s).isSealed = s.isSealed
  induction ps generalizing s with
  | nil => rfl
  | cons p ps ih =>
    rw [List.foldl_cons, ih, publish]
    split <;> simp_all

/-- Publications reach an open store and no other. -/
theorem tags_publishAll (ps : List (Symbol × SourcedTag)) (s : TagStore) :
    (s.publishAll ps).1.tags =
      if s.isSealed then s.tags else ps.foldl (fun m e => m.put e.1 e.2) s.tags := by
  change (ps.foldl (fun s t => s.publish t.1 t.2) s).tags = _
  induction ps generalizing s with
  | nil => simp
  | cons p ps ih =>
    rw [List.foldl_cons, ih, publish]
    cases h : s.isSealed <;> simp

/-- A published tag is one of those that were just published, or an older one. -/
theorem cases_of_get?_publishAll {ps : List (Symbol × SourcedTag)} {s : TagStore} {t : Symbol}
    {e : SourcedTag} (h : (s.publishAll ps).1.tags.get? t = some e) :
    (t, e) ∈ ps ∨ s.tags.get? t = some e := by
  rw [tags_publishAll] at h
  split at h
  · exact Or.inr h
  · exact SymbolMap.cases_of_get?_foldl_put h

/-- Every publication is counted, as taken in or as turned away. -/
theorem counts_publishAll (ps : List (Symbol × SourcedTag)) (s : TagStore) :
    (s.publishAll ps).1.writes = s.writes + (if s.isSealed then 0 else ps.length) ∧
      (s.publishAll ps).1.rejected = s.rejected + (if s.isSealed then ps.length else 0) := by
  change (ps.foldl (fun s t => s.publish t.1 t.2) s).writes = _ ∧
    (ps.foldl (fun s t => s.publish t.1 t.2) s).rejected = _
  induction ps generalizing s with
  | nil => simp
  | cons p ps ih =>
    rw [List.foldl_cons, (ih _).1, (ih _).2, publish]
    cases s.isSealed <;> simp <;> omega

theorem ext_iff {s s' : TagStore} : s = s' ↔ s.tags = s'.tags ∧ s.isSealed = s'.isSealed ∧
    s.writes = s'.writes ∧ s.rejected = s'.rejected := by
  cases s
  cases s'
  simp

/-- Publications of different symbols may be made in either order. -/
theorem publishAll_comm {ps qs : List (Symbol × SourcedTag)}
    (h : (ps.map (·.1)).Disjoint (qs.map (·.1))) (s : TagStore) :
    ((s.publishAll ps).1.publishAll qs).1 = ((s.publishAll qs).1.publishAll ps).1 := by
  rw [ext_iff]
  simp only [tags_publishAll, isSealed_publishAll, counts_publishAll]
  refine ⟨?_, trivial, by omega, by omega⟩
  cases s.isSealed
  · exact SymbolMap.foldl_put_comm h s.tags
  · rfl

theorem publishAll_append (ps qs : List (Symbol × SourcedTag)) (s : TagStore) :
    (s.publishAll (ps ++ qs)).1 = ((s.publishAll ps).1.publishAll qs).1 := List.foldl_append ..

/-- Publishing the same tags once more changes no tag. -/
theorem tags_publishAll_idem (ps : List (Symbol × SourcedTag)) (s : TagStore) :
    ((s.publishAll ps).1.publishAll ps).1.tags = (s.publishAll ps).1.tags := by
  rw [tags_publishAll, isSealed_publishAll, tags_publishAll]
  cases s.isSealed
  · exact SymbolMap.foldl_put_idem ps s.tags
  · rfl

end TagStore

end ThreadAffinity
