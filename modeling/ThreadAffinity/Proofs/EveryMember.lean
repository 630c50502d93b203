import ThreadAffinity.Proofs.PartWalk
import ThreadAffinity.Proofs.Places

/-!
Every member has one effective tag.

The members of a file are listed here in reading order, each with its place, whether or not a type
around it is left out (`SourceUnit.placedMembers`). The walk meets those of them that no type left out
stands around, in the same order, and what it makes of a member is a matter of its place and of the
declared tags alone (`SourceUnit.met_visits`). So all that the walk has to say about members can be
read off the listing: the tags, the advisories and the exports
(`SourceUnit.effectiveTags_of_members`). -/

namespace ThreadAffinity

namespace PlacedMember

/-- Whether other files may refer to the member. -/
def isExported (n : PlacedMember) : Bool := n.isTopLevel && n.member.visibility.isExported

/-- The advisory for the member. -/
def advisory (n : PlacedMember) : Finding := ⟨.unannotated n.symbol, n.member.span⟩

end PlacedMember

/-- The member, if the item is one. -/
def PlacedItem.member? : PlacedItem → Option PlacedMember
  | member n => some n
  | expr _ => none

/-- Every member in a file, in reading order. -/
def SourceUnit.placedMembers (u : SourceUnit) : List PlacedMember :=
  u.items.filterMap PlacedItem.member?

/-- The members that no type left out stands around. -/
def SourceUnit.visibleMembers (x : Exclusions) (u : SourceUnit) : List PlacedMember :=
  u.placedMembers.filter (·.place.visible x)

/-- What the walk makes of a member. -/
structure Meeting where
  member : Member
  tag : SourcedTag
  isTopLevel : Bool

/-- The member's symbol. -/
def Meeting.symbol (e : Meeting) : Symbol := e.member.symbol

/-- Whether other files may refer to the member. -/
def Meeting.isExported (e : Meeting) : Bool := e.isTopLevel && e.member.visibility.isExported

/-- The member that is met, and what the walk makes of it. -/
def Visit.met? : Visit → Option Meeting
  | topLevel m tag => some ⟨m, tag, true⟩
  | nested m tag => some ⟨m, tag, false⟩
  | _ => none

/-- What the walk is expected to make of a member. -/
def PlacedMember.meeting (declared : TagMap) (n : PlacedMember) : Meeting :=
  ⟨n.member, n.tag declared, n.isTopLevel⟩

/-! ### The walk meets the members -/

/-- What the walk comes by, cut down to members. -/
def meetingsOf (vs : List Visit) : List Meeting := vs.filterMap Visit.met?

theorem PlacedItem.place_of_member? (i : PlacedItem) (n : PlacedMember) (h : i.member? = some n) :
    n.place = i.place := by
  cases i <;> cases h
  rfl

theorem PlacedMember.met?_visit (declared : TagMap) (n : PlacedMember) :
    (n.visit declared).met? = some (n.meeting declared) := by
  unfold visit meeting
  split <;> simp_all [Visit.met?]

/-- The walk through a file meets its members, but for those that a type left out stands around. -/
theorem SourceUnit.met_visits (u : SourceUnit) (x : Exclusions) (declared : TagMap) :
    meetingsOf (u.visits x declared) = (u.visibleMembers x).map (·.meeting declared) := by
  rw [← List.filterMap_eq_map]
  refine u.filterMap_visits x PlacedItem.place_of_member? fun i => ?_
  cases i with
  | member n => exact n.met?_visit declared
  | expr n =>
    obtain ⟨p, _ | ⟨_ | _, _, _⟩ | _ | _⟩ := n <;> rfl

/-! ### Reading the results off -/

namespace Visit

theorem member?_eq (v : Visit) : v.member? = v.met?.map fun e => (e.member, e.tag) := by
  cases v <;> rfl

theorem exported?_eq (v : Visit) :
    v.exported? = v.met?.bind fun e => if e.isExported then some e.symbol else none := by
  cases v <;> rfl

theorem advisory?_eq (declared : TagMap) (v : Visit) : v.advisory? declared = v.met?.bind fun e =>
    if e.isTopLevel && (declared.get? e.symbol).isNone then
      some ⟨.unannotated e.symbol, e.member.span⟩ else none := by
  cases v with
  | topLevel m tag =>
    rw [advisory?, SymbolMap.contains]
    cases h : declared.get? m.symbol <;> simp [met?, Meeting.symbol, h]
  | _ => rfl

end Visit

theorem members_eq (vs : List Visit) :
    vs.filterMap Visit.member? = (meetingsOf vs).map fun e => (e.member, e.tag) := by
  rw [meetingsOf, List.map_filterMap]
  exact List.filterMap_congr fun v _ => v.member?_eq

/-- Whether the first meeting with the symbol says that other files may refer to it. -/
def firstExported (ms : List Meeting) (s : Symbol) : Bool :=
  (ms.find? (·.symbol = s)).any Meeting.isExported

theorem firstExported_cons_self (e : Meeting) (ms : List Meeting) :
    firstExported (e :: ms) e.symbol = e.isExported := by
  simp [firstExported]

/-- A meeting with another symbol makes no difference. -/
theorem filter_firstExported_cons {e : Meeting} {ss : List Symbol} (h : e.symbol ∉ ss)
    (ms : List Meeting) :
    ss.filter (firstExported (e :: ms)) = ss.filter (firstExported ms) := by
  refine List.filter_congr fun s hs => ?_
  have hne : e.symbol ≠ s := fun heq => h (heq ▸ hs)
  rw [firstExported, List.find?_cons_of_neg (by simpa using hne), firstExported]

/-- The symbols that are exported besides those seen are the ones whose first meeting says so, each
once and in the order of these meetings. -/
theorem exportsOf_eq_eraseDups : ∀ (vs : List Visit) (seen : List Symbol),
    exportsOf seen vs =
      ((((meetingsOf vs).map Meeting.symbol).filter (!seen.contains ·)).eraseDups).filter
        (firstExported (meetingsOf vs))
  | [], _ => rfl
  | v :: vs, seen => by
    rw [exportsOf, Visit.member?_eq]
    cases hmet : v.met? with
    | none =>
      have hskip : meetingsOf (v :: vs) = meetingsOf vs := List.filterMap_cons_none hmet
      rw [hskip]
      exact exportsOf_eq_eraseDups vs seen
    | some e =>
      have hcons : meetingsOf (v :: vs) = e :: meetingsOf vs := List.filterMap_cons_some hmet
      rw [hcons, List.map_cons]
      change (if seen.contains e.symbol then exportsOf seen vs
        else v.exported?.toList ++ exportsOf (e.symbol :: seen) vs) = _
      by_cases hseen : seen.contains e.symbol = true
      · have hnot : e.symbol ∉
            (((meetingsOf vs).map Meeting.symbol).filter (!seen.contains ·)).eraseDups := fun hmem => by
          have hkept := (List.mem_filter.1 (List.mem_eraseDups.1 hmem)).2
          rw [hseen] at hkept
          cases hkept
        rw [if_pos hseen, List.filter_cons_of_neg (by simpa using hseen),
          filter_firstExported_cons hnot]
        exact exportsOf_eq_eraseDups vs seen
      · have hrest : (((meetingsOf vs).map Meeting.symbol).filter (!seen.contains ·)).filter
              (!· == e.symbol) =
            ((meetingsOf vs).map Meeting.symbol).filter (!(e.symbol :: seen).contains ·) := by
          rw [List.filter_filter]
          exact List.filter_congr fun s _ => by rw [List.contains_cons, Bool.not_or]
        have hnot : e.symbol ∉ (((meetingsOf vs).map Meeting.symbol).filter
            (!(e.symbol :: seen).contains ·)).eraseDups := by
          simp
        rw [if_neg hseen, List.filter_cons_of_pos (by simpa using hseen), List.eraseDups_cons, hrest,
          List.filter_cons, firstExported_cons_self, filter_firstExported_cons hnot,
          ← exportsOf_eq_eraseDups vs (e.symbol :: seen), Visit.exported?_eq, hmet]
        cases h : e.isExported <;> simp [h]

namespace SourceUnit

variable (u : SourceUnit) (x : Exclusions) (declared : TagMap)

/-- The effective tag of a symbol is that of the first member that has it. -/
theorem get?_effectiveTags (advise : Bool) (s : Symbol) :
    (u.effectiveTags x declared advise).tags.get? s =
      ((u.visibleMembers x).find? (·.symbol = s)).map (·.tag declared) := by
  change (tagsOf (u.visits x declared)).get? s = _
  rw [get?_tagsOf, members_eq, met_visits, List.map_map, List.find?_map, Option.map_map]
  rfl

/-- The members that the walk goes by are those that the roster is drawn up from. -/
theorem symbols_visibleMembers : (u.visibleMembers x).map PlacedMember.symbol = u.symbols x := by
  rw [← symbols_visits x u .empty, members_eq, met_visits, List.map_map, List.map_map]
  rfl

theorem advisories_eq :
    (u.visits x declared).filterMap (Visit.advisory? declared) =
      ((u.visibleMembers x).filter fun n => n.isTopLevel && (declared.get? n.symbol).isNone).map
        PlacedMember.advisory := by
  rw [List.filterMap_congr fun v _ => v.advisory?_eq declared, ← List.filterMap_filterMap]
  change (meetingsOf _).filterMap _ = _
  rw [met_visits, List.filterMap_map, ← List.filterMap_eq_map, List.filterMap_filter]
  rfl

theorem exported_eq_eraseDups (advise : Bool) :
    (u.effectiveTags x declared advise).exported =
      ((u.visibleMembers x).map PlacedMember.symbol).eraseDups.filter fun s =>
        ((u.visibleMembers x).find? (·.symbol = s)).any PlacedMember.isExported := by
  change exportsOf [] (u.visits x declared) = _
  have hunseen : ∀ ss : List Symbol, ss.filter (!([] : List Symbol).contains ·) = ss := fun _ =>
    List.filter_eq_self.2 fun _ _ => rfl
  rw [exportsOf_eq_eraseDups, hunseen, met_visits, List.map_map]
  refine List.filter_congr fun s _ => ?_
  rw [firstExported, List.find?_map, Option.any_map]
  rfl

/-- What the walk through a file has to say about its members, whatever the declared tags are. The
symbols with an effective tag are those of the members that no type left out stands around, and also
those of the roster. The tag is that of the first member with the symbol in reading order: its
declared one, else the one that its place gives it. Every top-level member without a declared tag has
one advisory, if advisories are wanted. A symbol is exported, once and in the order of the first
members, if the first member that has it belongs to a top-level type and is not private. -/
theorem effectiveTags_of_members (advise : Bool) :
    (∀ s, s ∈ (u.effectiveTags x declared advise).tags.keys ↔
      ∃ n ∈ u.visibleMembers x, n.symbol = s) ∧
    (∀ s, s ∈ (u.effectiveTags x declared advise).tags.keys ↔ s ∈ (u.roster x).symbols) ∧
    (∀ s n, (u.visibleMembers x).find? (·.symbol = s) = some n →
      (u.effectiveTags x declared advise).tags.get? s = some (n.tag declared)) ∧
    (u.effectiveTags x declared advise).findings = (if advise then
      ((u.visibleMembers x).filter fun n =>
        n.isTopLevel && (declared.get? n.symbol).isNone).map PlacedMember.advisory else []) ∧
    (u.effectiveTags x declared advise).exported =
      ((u.visibleMembers x).map PlacedMember.symbol).eraseDups.filter fun s =>
        ((u.visibleMembers x).find? (·.symbol = s)).any PlacedMember.isExported := by
  have hkeys : ∀ s, s ∈ (u.effectiveTags x declared advise).tags.keys ↔ s ∈ u.symbols x := by
    intro s
    rw [SymbolMap.mem_keys_iff]
    exact isSome_effectiveTags_iff
  refine ⟨fun s => ?_, fun s => ?_, fun s n hn => ?_, ?_, ?_⟩
  · rw [hkeys, ← symbols_visibleMembers]
    exact List.mem_map
  · rw [hkeys, mem_roster_symbols_iff]
  · rw [get?_effectiveTags, hn, Option.map_some]
  · change (if advise then _ else _) = _
    rw [advisories_eq]
  · exact u.exported_eq_eraseDups x declared advise

end SourceUnit

end ThreadAffinity
