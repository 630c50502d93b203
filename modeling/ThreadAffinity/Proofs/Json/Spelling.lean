import ThreadAffinity.Json.Cursor
import ThreadAffinity.Json.Value

/-!
What a JSON value may look like in a text, and how deep its brackets nest.

Between the parts of a value any spaces may stand, so a value has many spellings. They are given as
a grammar that threads the text through: what comes in starts with a spelling, what is left stands
behind it. The text that a value is written as is one of them, whatever the layout puts between the
parts, as long as it is blank. -/

namespace ThreadAffinity.Json

/-- Nothing but spaces. -/
def Blank (g : List Char) : Prop := ∀ c ∈ g, isSpace c = true

theorem Blank.nil : Blank [] := fun _ h => absurd h List.not_mem_nil

/-! ### Spellings -/

mutual

/-- The text starts with a spelling of the value, and the rest stands behind it. -/
inductive Spells : Value → (text rest : List Char) → Prop
  | null {rest} : Spells .null ('n' :: 'u' :: 'l' :: 'l' :: rest) rest
  | yes {rest} : Spells (.boolean true) ('t' :: 'r' :: 'u' :: 'e' :: rest) rest
  | no {rest} : Spells (.boolean false) ('f' :: 'a' :: 'l' :: 's' :: 'e' :: rest) rest
  | natural {n rest} : Spells (.natural n) (Nat.toDigits 10 n ++ rest) rest
  | string {s rest} : Spells (.string s) (writeString s ++ rest) rest
  | emptyList {g rest} (hg : Blank g) : Spells (.list []) ('[' :: (g ++ ']' :: rest)) rest
  | list {g x xs text mid rest} (hg : Blank g) (hx : Spells x text mid)
      (hxs : SpellsItems xs mid rest) : Spells (.list (x :: xs)) ('[' :: (g ++ text)) rest
  | emptyObject {g rest} (hg : Blank g) : Spells (.object []) ('{' :: (g ++ '}' :: rest)) rest
  | object {g e es text mid rest} (hg : Blank g) (he : SpellsEntry e text mid)
      (hes : SpellsEntries es mid rest) : Spells (.object (e :: es)) ('{' :: (g ++ text)) rest

/-- The text goes on with the further items of a list, each behind a comma, and the bracket. -/
inductive SpellsItems : List Value → (text rest : List Char) → Prop
  | close {g rest} (hg : Blank g) : SpellsItems [] (g ++ ']' :: rest) rest
  | more {g g' x xs text mid rest} (hg : Blank g) (hg' : Blank g') (hx : Spells x text mid)
      (hxs : SpellsItems xs mid rest) : SpellsItems (x :: xs) (g ++ ',' :: (g' ++ text)) rest

/-- The text starts with an entry of an object: its key, a colon and its value. -/
inductive SpellsEntry : String × Value → (text rest : List Char) → Prop
  | mk {key g g' x text rest} (hg : Blank g) (hg' : Blank g') (hx : Spells x text rest) :
      SpellsEntry (key, x) (writeString key ++ (g ++ ':' :: (g' ++ text))) rest

/-- The text goes on with the further entries of an object, each behind a comma, and the bracket. -/
inductive SpellsEntries : List (String × Value) → (text rest : List Char) → Prop
  | close {g rest} (hg : Blank g) : SpellsEntries [] (g ++ '}' :: rest) rest
  | more {g g' e es text mid rest} (hg : Blank g) (hg' : Blank g') (he : SpellsEntry e text mid)
      (hes : SpellsEntries es mid rest) : SpellsEntries (e :: es) (g ++ ',' :: (g' ++ text)) rest

end

/-- A text is a document of a value: a spelling of it, with spaces around it. -/
def DocumentOf (v : Value) (text : List Char) : Prop :=
  ∃ before spelling behind, Blank before ∧ Blank behind ∧ Spells v spelling behind ∧
    text = before ++ spelling

/-! ### Written texts -/

/-- A layout puts nothing but spaces between the parts. -/
structure Layout.Blank (l : Layout) : Prop where
  gap (depth : Nat) : Json.Blank (l.gap depth)
  behindColon : Json.Blank l.behindColon

theorem Layout.indented_blank : Layout.indented.Blank where
  gap depth c hc := by
    rcases List.mem_cons.1 hc with rfl | hc
    · rfl
    · rw [List.eq_of_mem_replicate hc]; rfl
  behindColon c hc := by rw [List.mem_singleton.1 hc]; rfl

theorem Layout.compact_blank : Layout.compact.Blank := ⟨fun _ => .nil, .nil⟩

mutual

/-- What is written is a spelling. -/
theorem spells_write {l : Layout} (hl : l.Blank) : ∀ (v : Value) (depth : Nat) (rest : List Char),
    Spells v (v.write l depth ++ rest) rest
  | .null, _, _ => .null
  | .boolean true, _, _ => .yes
  | .boolean false, _, _ => .no
  | .natural _, _, _ => .natural
  | .string _, _, _ => .string
  | .list [], _, _ => .emptyList .nil
  | .list (x :: xs), depth, rest => by
    have hxs := spellsItems_write hl xs (depth + 1) (hl.gap depth) rest
    simpa [Value.write] using Spells.list (hl.gap (depth + 1)) (spells_write hl x (depth + 1) _) hxs
  | .object [], _, _ => .emptyObject .nil
  | .object (e :: es), depth, rest => by
    have hes := spellsEntries_write hl es (depth + 1) (hl.gap depth) rest
    simpa [Value.write] using
      Spells.object (hl.gap (depth + 1)) (spellsEntry_write hl e (depth + 1) _) hes

theorem spellsItems_write {l : Layout} (hl : l.Blank) : ∀ (xs : List Value) (depth : Nat)
    {g : List Char} (_ : Blank g) (rest : List Char),
    SpellsItems xs (writeItems l depth xs ++ (g ++ ']' :: rest)) rest
  | [], _, _, hg, _ => .close hg
  | x :: xs, depth, _, hg, rest => by
    have hxs := spellsItems_write hl xs depth hg rest
    simpa [writeItems] using
      SpellsItems.more .nil (hl.gap depth) (spells_write hl x depth _) hxs

theorem spellsEntry_write {l : Layout} (hl : l.Blank) : ∀ (e : String × Value) (depth : Nat)
    (rest : List Char), SpellsEntry e (writeEntry l depth e ++ rest) rest
  | (key, x), depth, rest => by
    have spelled : SpellsEntry (key, x) _ rest :=
      .mk .nil hl.behindColon (spells_write hl x depth rest)
    simpa [writeEntry] using spelled

theorem spellsEntries_write {l : Layout} (hl : l.Blank) : ∀ (es : List (String × Value))
    (depth : Nat) {g : List Char} (_ : Blank g) (rest : List Char),
    SpellsEntries es (writeEntries l depth es ++ (g ++ '}' :: rest)) rest
  | [], _, _, hg, _ => .close hg
  | e :: es, depth, _, hg, rest => by
    have hes := spellsEntries_write hl es depth hg rest
    simpa [writeEntries] using
      SpellsEntries.more .nil (hl.gap depth) (spellsEntry_write hl e depth _) hes

end

/-- What is written is a document. -/
theorem documentOf_write {l : Layout} (hl : l.Blank) (v : Value) : DocumentOf v (v.write l 0) :=
  ⟨[], v.write l 0, [], .nil, .nil, by simpa using spells_write hl v 0 [], rfl⟩

/-- The text of a value is a document of it. -/
theorem documentOf_text (v : Value) : DocumentOf v v.text.toList := by
  simpa [Value.text] using documentOf_write Layout.indented_blank v

/-! ### Nesting -/

mutual

/-- How many brackets stand around the innermost part of a value. -/
def Value.depth : Value → Nat
  | .list items => itemsDepth items + 1
  | .object entries => entriesDepth entries + 1
  | _ => 0

/-- How deep the items of a list nest. -/
def itemsDepth : List Value → Nat
  | [] => 0
  | x :: xs => max x.depth (itemsDepth xs)

/-- How deep the values in an object nest. -/
def entriesDepth : List (String × Value) → Nat
  | [] => 0
  | (_, x) :: es => max x.depth (entriesDepth es)

end

theorem itemsDepth_le_iff {xs : List Value} {n : Nat} :
    itemsDepth xs ≤ n ↔ ∀ x ∈ xs, x.depth ≤ n := by
  induction xs with
  | nil => simp [itemsDepth]
  | cons x xs ih => rw [itemsDepth, Nat.max_le, ih, List.forall_mem_cons]

theorem entriesDepth_le_iff {es : List (String × Value)} {n : Nat} :
    entriesDepth es ≤ n ↔ ∀ e ∈ es, e.2.depth ≤ n := by
  induction es with
  | nil => simp [entriesDepth]
  | cons e es ih => rw [entriesDepth, Nat.max_le, ih, List.forall_mem_cons]

/-! ### What stands at the front -/

/-- What follows a value does not go on a number. -/
def AtBreak (rest : List Char) : Prop :=
  ∀ c ∈ rest.head?, c.isDigit = false ∧ c ≠ '.' ∧ c ≠ 'e' ∧ c ≠ 'E'

theorem atBreak_of_blank {g rest : List Char} (hg : Blank g) (h : AtBreak rest) :
    AtBreak (g ++ rest) := by
  rcases g with _ | ⟨c, g⟩
  · exact h
  · intro d hd
    obtain rfl : c = d := by simpa using hd
    have hc := hg c (.head _)
    simp only [isSpace, Bool.or_eq_true, beq_iff_eq] at hc
    rcases hc with ((rfl | rfl) | rfl) | rfl <;> decide

theorem SpellsItems.atBreak {xs : List Value} {text rest : List Char}
    (h : SpellsItems xs text rest) : AtBreak text := by
  cases h with
  | close hg => exact atBreak_of_blank hg fun _ hc => by cases hc; decide
  | more hg => exact atBreak_of_blank hg fun _ hc => by cases hc; decide

theorem SpellsEntries.atBreak {es : List (String × Value)} {text rest : List Char}
    (h : SpellsEntries es text rest) : AtBreak text := by
  cases h with
  | close hg => exact atBreak_of_blank hg fun _ hc => by cases hc; decide
  | more hg => exact atBreak_of_blank hg fun _ hc => by cases hc; decide

/-- A numeral starts with a digit. -/
theorem toDigits_eq_cons (n : Nat) :
    ∃ d ds, Nat.toDigits 10 n = d :: ds ∧ d.isDigit = true := by
  rcases h : Nat.toDigits 10 n with _ | ⟨d, ds⟩
  · exact absurd h Nat.toDigits_ne_nil
  · exact ⟨d, ds, rfl, Nat.isDigit_of_mem_toDigits (by omega) (by omega) (h ▸ List.mem_cons_self)⟩

theorem isSpace_of_isDigit {c : Char} (h : c.isDigit = true) : isSpace c = false := by
  rw [Bool.eq_false_iff]
  intro hc
  simp only [isSpace, Bool.or_eq_true, beq_iff_eq] at hc
  rcases hc with ((rfl | rfl) | rfl) | rfl <;> exact absurd h (by decide)

/-- A spelling starts with no space and no closing bracket, and with an `n` only if it is `null`. -/
theorem Spells.head {v : Value} {text rest : List Char} (h : Spells v text rest) :
    ∃ c tail, text = c :: tail ∧ isSpace c = false ∧ c ≠ ']' ∧ (v ≠ .null → c ≠ 'n') := by
  cases h with
  | @natural n =>
    obtain ⟨d, ds, hds, hd⟩ := toDigits_eq_cons n
    refine ⟨d, ds ++ rest, by rw [hds]; rfl, isSpace_of_isDigit hd, ?_, fun _ => ?_⟩ <;>
    · rintro rfl
      exact absurd hd (by decide)
  | null => exact ⟨_, _, rfl, by decide, by decide, fun h => absurd rfl h⟩
  | yes | no | string | emptyList | list | emptyObject | object =>
    exact ⟨_, _, rfl, by decide, by decide, fun _ => by decide⟩

theorem Spells.list_head {vs : List Value} {text rest : List Char}
    (h : Spells (.list vs) text rest) : ∃ tail, text = '[' :: tail := by
  cases h <;> exact ⟨_, rfl⟩

theorem Spells.object_head {es : List (String × Value)} {text rest : List Char}
    (h : Spells (.object es) text rest) : ∃ tail, text = '{' :: tail := by
  cases h <;> exact ⟨_, rfl⟩

theorem SpellsEntry.head {e : String × Value} {text rest : List Char}
    (h : SpellsEntry e text rest) : ∃ tail, text = '"' :: tail := by
  cases h
  exact ⟨_, rfl⟩

/-! ### Lengths

Loops take at most as many rounds as there are characters. That is enough: every item takes up at
least one of them. -/

mutual

/-- A spelling takes up some of the text. -/
theorem Spells.length_lt : ∀ {v : Value} {text rest : List Char}, Spells v text rest →
    rest.length < text.length
  | _, _, _, .null | _, _, _, .yes | _, _, _, .no => by
    simp only [List.length_cons]
    omega
  | _, _, _, .natural => by simp [Nat.length_toDigits_pos]
  | _, _, _, .string => by
    simp [writeString]
    omega
  | _, _, _, .emptyList _ | _, _, _, .emptyObject _ => by
    simp
    omega
  | _, _, _, .list _ hx hxs => by
    have := hx.length_lt
    have := hxs.length_lt
    simp
    omega
  | _, _, _, .object _ he hes => by
    have := he.length_lt
    have := hes.length_lt
    simp
    omega

theorem SpellsItems.length_lt : ∀ {vs : List Value} {text rest : List Char},
    SpellsItems vs text rest → vs.length + rest.length < text.length
  | _, _, _, .close _ => by
    simp
    omega
  | _, _, _, .more _ _ hx hxs => by
    have := hx.length_lt
    have := hxs.length_lt
    simp
    omega

theorem SpellsEntry.length_lt : ∀ {e : String × Value} {text rest : List Char},
    SpellsEntry e text rest → rest.length < text.length
  | _, _, _, .mk _ _ hx => by
    have := hx.length_lt
    simp
    omega

theorem SpellsEntries.length_lt : ∀ {es : List (String × Value)} {text rest : List Char},
    SpellsEntries es text rest → es.length + rest.length < text.length
  | _, _, _, .close _ => by
    simp
    omega
  | _, _, _, .more _ _ he hes => by
    have := he.length_lt
    have := hes.length_lt
    simp
    omega

end
end ThreadAffinity.Json
