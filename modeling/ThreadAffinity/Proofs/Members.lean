import Mathlib.Data.List.Nodup
import ThreadAffinity.Roster

/-!
Which members a file has.

The roster is drawn up sighting by sighting. What it comes to is the list of all declarations in
reading order with later ones of the same symbol left out (`find?_roster`, `nodup_roster_symbols`),
so a symbol's declaration is its first occurrence. The occurrences of a file that consists of two
parts are those of the parts. -/

namespace ThreadAffinity

/-- The declaration that is sighted, if the sighting is of one. -/
def Sighting.declaration? : Sighting → Option Declaration
  | excluded _ => none
  | declared d => some d

/-- The declarations of a file that are not left out, in reading order, repeated symbols and all. -/
def SourceUnit.occurrences (x : Exclusions) (u : SourceUnit) : List Declaration :=
  (u.sightings x).filterMap Sighting.declaration?

/-- The symbols of these declarations. -/
def SourceUnit.symbols (x : Exclusions) (u : SourceUnit) : List Symbol :=
  (u.occurrences x).map (·.member.symbol)

/-- The first declaration of a symbol in reading order. -/
def SourceUnit.member? (x : Exclusions) (u : SourceUnit) (s : Symbol) : Option Declaration :=
  (u.occurrences x).find? (·.member.symbol = s)

namespace Roster

variable {r : Roster} {s : Symbol} {d : Declaration}

theorem symbol_of_find? (h : r.find? s = some d) : d.member.symbol = s := by
  simpa using List.find?_some h

theorem mem_of_find? (h : r.find? s = some d) : d ∈ r.declarations :=
  List.mem_of_find?_eq_some h

theorem mem_symbols_iff : s ∈ r.symbols ↔ ∃ d, r.find? s = some d := by
  rw [← Option.isSome_iff_exists, find?, List.find?_isSome, symbols, List.mem_map]
  simp

theorem contains_iff : r.contains s = true ↔ s ∈ r.symbols := by
  rw [contains, Option.isSome_iff_exists, mem_symbols_iff]

/-- Where no symbol is repeated, each declaration is the one of its symbol. -/
theorem find?_of_mem (h : r.symbols.Nodup) (hd : d ∈ r.declarations) :
    r.find? d.member.symbol = some d := by
  obtain ⟨e, he⟩ := mem_symbols_iff.1 (List.mem_map_of_mem hd)
  rwa [List.inj_on_of_nodup_map h (mem_of_find? he) hd (symbol_of_find? he)] at he

theorem find?_meet (r : Roster) (sighting : Sighting) (s : Symbol) :
    (r.meet sighting).find? s =
      (r.find? s).or (sighting.declaration?.toList.find? (·.member.symbol = s)) := by
  cases sighting with
  | excluded name => simp [meet, Sighting.declaration?]
  | declared d =>
    simp only [meet, add, Sighting.declaration?, Option.toList_some]
    by_cases hin : r.contains d.member.symbol = true
    · obtain ⟨e, he⟩ := Option.isSome_iff_exists.1 hin
      rw [if_pos hin]
      by_cases hs : d.member.symbol = s
      · simp [← hs, he]
      · simp [hs]
    · rw [if_neg hin]
      simp [find?, List.find?_append]

theorem find?_meetAll (s : Symbol) :
    ∀ (ss : List Sighting) (r : Roster), (r.meetAll ss).1.find? s =
      (r.find? s).or ((ss.filterMap Sighting.declaration?).find? (·.member.symbol = s))
  | [], r => by simp [meetAll]
  | sighting :: ss, r => by
    rw [meetAll, find?_meetAll s ss, find?_meet, Option.or_assoc, ← List.find?_append]
    cases h : sighting.declaration? <;> simp [h]

theorem nodup_symbols_meet {r : Roster} (h : r.symbols.Nodup) (sighting : Sighting) :
    (r.meet sighting).symbols.Nodup := by
  cases sighting with
  | excluded name => exact h
  | declared d =>
    simp only [meet, add]
    by_cases hin : r.contains d.member.symbol = true
    · rwa [if_pos hin]
    · rw [if_neg hin]
      rw [contains_iff] at hin
      simpa [symbols] using h.concat hin

theorem nodup_symbols_meetAll :
    ∀ (ss : List Sighting) {r : Roster}, r.symbols.Nodup → (r.meetAll ss).1.symbols.Nodup
  | [], _, h => h
  | sighting :: ss, _, h => nodup_symbols_meetAll ss (nodup_symbols_meet h sighting)

/-- Where no symbol is repeated, every declaration that is sighted is taken in. -/
theorem declarations_meetAll :
    ∀ (ss : List Sighting) {r : Roster},
      ((r.declarations ++ ss.filterMap Sighting.declaration?).map (·.member.symbol)).Nodup →
        (r.meetAll ss).1.declarations = r.declarations ++ ss.filterMap Sighting.declaration?
  | [], r, _ => (List.append_nil _).symm
  | .excluded name :: ss, r, h => by
    rw [meetAll]
    exact declarations_meetAll ss h
  | .declared d :: ss, r, h => by
    have hsplit : (r.declarations ++ [d]) ++ ss.filterMap Sighting.declaration? =
        r.declarations ++ (Sighting.declared d :: ss).filterMap Sighting.declaration? := by
      simp [Sighting.declaration?]
    have hnew : d.member.symbol ∉ r.symbols := by
      rw [← hsplit, List.map_append, List.map_append] at h
      have hdisjoint := List.disjoint_of_nodup_append (List.nodup_append.1 h).1
      exact fun hmem => hdisjoint hmem (by simp)
    have hmeet : r.meet (.declared d) = ⟨r.declarations ++ [d]⟩ := by
      rw [meet, add, if_neg (by rwa [contains_iff])]
    rw [meetAll, hmeet, declarations_meetAll ss (hsplit ▸ h), hsplit]

end Roster

namespace SourceUnit

variable (x : Exclusions) (u : SourceUnit)

/-- The roster has the first declaration of each symbol. -/
theorem find?_roster (s : Symbol) : (u.roster x).find? s = u.member? x s := by
  rw [roster, Roster.find?_meetAll]
  rfl

/-- Where no symbol is repeated, the roster has all declarations. -/
theorem declarations_roster (h : (u.symbols x).Nodup) :
    (u.roster x).declarations = u.occurrences x :=
  Roster.declarations_meetAll (u.sightings x) (r := {}) h

theorem mem_roster_symbols_iff {s : Symbol} : s ∈ (u.roster x).symbols ↔ s ∈ u.symbols x := by
  rw [Roster.mem_symbols_iff, find?_roster, ← Option.isSome_iff_exists, member?, List.find?_isSome,
    symbols, List.mem_map]
  simp

theorem contains_roster_iff {s : Symbol} : (u.roster x).contains s = true ↔ s ∈ u.symbols x := by
  rw [Roster.contains_iff, mem_roster_symbols_iff]

/-- The members of a file that consists of two parts are those of the one and then of the other. -/
theorem occurrences_parts {u u₁ u₂ : SourceUnit} (h : u.types = u₁.types ++ u₂.types) :
    u.occurrences x = u₁.occurrences x ++ u₂.occurrences x := by
  unfold occurrences sightings
  rw [h, List.flatMap_append, List.filterMap_append]

theorem symbols_parts {u u₁ u₂ : SourceUnit} (h : u.types = u₁.types ++ u₂.types) :
    u.symbols x = u₁.symbols x ++ u₂.symbols x := by
  rw [symbols, occurrences_parts x h, List.map_append, symbols, symbols]

theorem member?_parts {u u₁ u₂ : SourceUnit} (h : u.types = u₁.types ++ u₂.types) (s : Symbol) :
    u.member? x s = (u₁.member? x s).or (u₂.member? x s) := by
  rw [member?, occurrences_parts x h, List.find?_append, member?, member?]

theorem symbols_roster_parts {u u₁ u₂ : SourceUnit} (h : u.types = u₁.types ++ u₂.types)
    (hn : (u₁.symbols x ++ u₂.symbols x).Nodup) :
    (u.roster x).symbols = (u₁.roster x).symbols ++ (u₂.roster x).symbols := by
  obtain ⟨hn₁, hn₂, -⟩ := List.nodup_append.1 hn
  have hall : (u.symbols x).Nodup := symbols_parts x h ▸ hn
  rw [Roster.symbols, declarations_roster x u hall, Roster.symbols, declarations_roster x u₁ hn₁,
    Roster.symbols, declarations_roster x u₂ hn₂, occurrences_parts x h, List.map_append]

theorem nodup_roster_symbols : (u.roster x).symbols.Nodup :=
  Roster.nodup_symbols_meetAll _ List.nodup_nil

/-- The declarations of the roster are the first ones. -/
theorem mem_roster_iff {d : Declaration} :
    d ∈ (u.roster x).declarations ↔ u.member? x d.member.symbol = some d := by
  rw [← find?_roster]
  exact ⟨Roster.find?_of_mem (nodup_roster_symbols x u), Roster.mem_of_find?⟩

theorem mem_occurrences_of_roster {d : Declaration} (h : d ∈ (u.roster x).declarations) :
    d ∈ u.occurrences x := List.mem_of_find?_eq_some ((mem_roster_iff x u).1 h)

end SourceUnit

end ThreadAffinity
