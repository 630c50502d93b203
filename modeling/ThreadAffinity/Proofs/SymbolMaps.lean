import Mathlib.Data.List.Sort
import ThreadAffinity.SymbolMap

/-!
Maps, symbol by symbol.

The entries of a map are in strictly ascending order, so a map is what its look-ups say
(`SymbolMap.ext_get?`). What many entries put in one after another come to is said by one look-up as
well: of several for one symbol the last one stays, or the first if only new ones are put in. -/

namespace ThreadAffinity

namespace SymbolMap

variable {α : Type} {m m' : SymbolMap α}

theorem mem_of_findEntry {s : Symbol} {v : α} :
    ∀ {es : List (Symbol × α)}, findEntry s es = some v → (s, v) ∈ es
  | e :: es, h => by
    unfold findEntry at h
    split at h
    case isTrue he =>
      obtain rfl := Option.some.inj h
      exact he ▸ List.mem_cons_self
    case isFalse => exact List.mem_cons_of_mem _ (mem_of_findEntry h)

theorem findEntry_of_mem {s : Symbol} {v : α} :
    ∀ {es : List (Symbol × α)}, es.Pairwise (·.1 < ·.1) → (s, v) ∈ es → findEntry s es = some v
  | e :: es, hs, h => by
    obtain ⟨he, hes⟩ := List.pairwise_cons.1 hs
    rcases List.mem_cons.1 h with rfl | h
    · simp [findEntry]
    · rw [findEntry, if_neg (Symbol.ne_of_lt (he _ h)), findEntry_of_mem hes h]

theorem mem_entries_iff {s : Symbol} {v : α} : (s, v) ∈ m.entries ↔ m.get? s = some v :=
  ⟨findEntry_of_mem m.ascending, mem_of_findEntry⟩

theorem mem_keys_of_get? {s : Symbol} {v : α} (h : m.get? s = some v) : s ∈ m.keys :=
  List.mem_map_of_mem (mem_entries_iff.2 h)

theorem mem_keys_iff {s : Symbol} : s ∈ m.keys ↔ (m.get? s).isSome = true := by
  refine ⟨fun h => ?_, fun h => ?_⟩
  · obtain ⟨⟨_, v⟩, he, rfl⟩ := List.mem_map.1 h
    exact Option.isSome_of_eq_some (mem_entries_iff.1 he)
  · obtain ⟨v, hv⟩ := Option.isSome_iff_exists.1 h
    exact mem_keys_of_get? hv

theorem nodup_keys (m : SymbolMap α) : m.keys.Nodup :=
  (List.pairwise_map.2 m.ascending).imp Symbol.ne_of_lt

/-- A map is what its look-ups say. -/
theorem ext_get? (h : ∀ s, m.get? s = m'.get? s) : m = m' := by
  have hmem : ∀ e, e ∈ m.entries ↔ e ∈ m'.entries := fun e => by
    rw [mem_entries_iff, mem_entries_iff, h]
  have : Std.Irrefl fun a b : Symbol × α => a.1 < b.1 := ⟨fun a => Symbol.lt_irrefl a.1⟩
  have : Std.Antisymm fun a b : Symbol × α => a.1 < b.1 :=
    ⟨fun a b hab hba => absurd (Symbol.lt_trans hab hba) (Symbol.lt_irrefl a.1)⟩
  have hentries : m.entries = m'.entries := m.ascending.eq_of_mem_iff m'.ascending hmem
  cases m
  cases m'
  simp_all

/-- Of several entries put in for a symbol the last one stays. -/
theorem get?_foldl_put (t : Symbol) : ∀ (es : List (Symbol × α)) (m : SymbolMap α),
    (es.foldl (fun m e => m.put e.1 e.2) m).get? t = (es.reverse.lookup t).or (m.get? t)
  | [], m => by simp
  | (s, v) :: es, m => by
    rw [List.foldl_cons, get?_foldl_put t es, get?_put, List.reverse_cons, List.lookup_append,
      Option.or_assoc, List.lookup_cons, List.lookup_nil]
    by_cases h : t = s
    · simp [h]
    · simp [h, beq_eq_false_iff_ne.2 h]

/-- The symbols of a list of entries are those of its map. -/
theorem mem_keys_ofList {s : Symbol} {es : List (Symbol × α)} :
    s ∈ (ofList es).keys ↔ s ∈ es.map (·.1) := by
  rw [mem_keys_iff, ofList, get?_foldl_put, get?_empty, Option.or_none, List.lookup_isSome_iff,
    List.mem_map]
  simp only [List.mem_reverse, beq_iff_eq]
  exact exists_congr fun e => and_congr_right fun _ => eq_comm

/-- What is found after entries were put in is one of them or was there before. -/
theorem cases_of_get?_foldl_put {t : Symbol} {v : α} {es : List (Symbol × α)} {m : SymbolMap α}
    (h : (es.foldl (fun m e => m.put e.1 e.2) m).get? t = some v) :
    (t, v) ∈ es ∨ m.get? t = some v := by
  rw [get?_foldl_put, Option.or_eq_some_iff] at h
  rcases h with h | ⟨-, h⟩
  · obtain ⟨l, l', hl, -⟩ := List.lookup_eq_some_iff.1 h
    rw [← List.mem_reverse, hl]
    exact Or.inl (List.mem_append_right _ List.mem_cons_self)
  · exact Or.inr h

/-- Putting the same entries in once more changes nothing. -/
theorem foldl_put_idem (es : List (Symbol × α)) (m : SymbolMap α) :
    es.foldl (fun m e => m.put e.1 e.2) (es.foldl (fun m e => m.put e.1 e.2) m) =
      es.foldl (fun m e => m.put e.1 e.2) m := by
  refine ext_get? fun t => ?_
  rw [get?_foldl_put, get?_foldl_put]
  cases es.reverse.lookup t <;> rfl

theorem lookup_reverse_eq_none {t : Symbol} {es : List (Symbol × α)} (h : t ∉ es.map (·.1)) :
    es.reverse.lookup t = none := by
  refine List.lookup_eq_none_iff.2 fun e he => bne_iff_ne.2 ?_
  rintro rfl
  exact h (List.mem_map_of_mem (List.mem_reverse.1 he))

/-- Entries for different symbols may be put in in either order. -/
theorem foldl_put_comm {es fs : List (Symbol × α)} (h : (es.map (·.1)).Disjoint (fs.map (·.1)))
    (m : SymbolMap α) :
    fs.foldl (fun m e => m.put e.1 e.2) (es.foldl (fun m e => m.put e.1 e.2) m) =
      es.foldl (fun m e => m.put e.1 e.2) (fs.foldl (fun m e => m.put e.1 e.2) m) := by
  refine ext_get? fun t => ?_
  simp only [get?_foldl_put]
  by_cases ht : t ∈ es.map (·.1)
  · rw [lookup_reverse_eq_none fun ht' => h ht ht', Option.none_or, Option.none_or]
  · rw [lookup_reverse_eq_none ht, Option.none_or, Option.none_or]

/-- Of several values put in for a symbol the first one stays. -/
theorem get?_foldl_putNew {β : Type} (key : β → Symbol) (value : β → α) (t : Symbol) :
    ∀ (bs : List β) (m : SymbolMap α),
      (bs.foldl (fun m b => m.putNew (key b) (value b)) m).get? t =
        (m.get? t).or ((bs.find? (key · = t)).map value)
  | [], m => by simp
  | b :: bs, m => by
    rw [List.foldl_cons, get?_foldl_putNew key value t bs, get?_putNew, List.find?_cons]
    by_cases hb : key b = t
    · subst hb
      cases h : m.get? (key b) <;> simp
    · simp [hb, Ne.symm hb]

end SymbolMap

end ThreadAffinity
