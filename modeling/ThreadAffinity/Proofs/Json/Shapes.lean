import Mathlib.Data.List.Forall2
import Mathlib.Data.List.Nodup
import ThreadAffinity.Proofs.Json.Scalars

/-!
What the readers of the several shapes make of a spelled value.

A reader decodes a value to `x` if it reads `x` off every spelling of the value, as long as the value
nests no deeper than there is room, and stops because of the depth otherwise. Brackets take one from
the room and leave the rest to their content. The entries of an object may come in any order: what a
reader of records knows after some of them depends on which keys it has seen, not on their order. -/

namespace ThreadAffinity.Json

variable {α β σ : Type} {room : Nat}

/-- The reader reads `x` off the value, unless that nests deeper than there is room. -/
def Decodes (r : Reading α) (room : Nat) (v : Value) (x : α) : Prop :=
  ∀ ⦃g text rest : List Char⦄, Blank g → Spells v text rest → AtBreak rest →
    Reads (v.depth ≤ room) r (g ++ text) x rest

namespace Decodes

/-- What is done with the result does not matter to the reading. -/
theorem map {r : Reading α} {v : Value} {x : α} (h : Decodes r room v x) (f : α → β) :
    Decodes (do return f (← r)) room v (f x) :=
  fun _ _ _ hg hv hrest => (h hg hv hrest).before .pure

/-- A document of the value gives `x`, unless it nests too deep. -/
theorem document {r : Reading α} {v : Value} {x : α} (h : Decodes r room v x) {text : List Char}
    (htext : DocumentOf v text) :
    (v.depth ≤ room ∧ Json.document r (String.ofList text) = .ok x) ∨
    (room < v.depth ∧ ∃ f, Json.document r (String.ofList text) = .error f ∧
      f.fault = .nestedTooDeep) := by
  obtain ⟨before, spelling, behind, hbefore, hbehind, hv, rfl⟩ := htext
  have atEnd : AtBreak behind := List.append_nil behind ▸ atBreak_of_blank hbehind nofun
  rw [← Nat.not_le]
  exact document_of_reads (h hbefore hv atEnd) hbehind

end Decodes

namespace Reads

variable {r : Reading α} {cs cs' : List Char} {x : α} {depth : Nat}

/-- A value without brackets always fits. -/
theorem scalar (hd : depth = 0) (h : Reads True r cs x cs') : Reads (depth ≤ room) r cs x cs' :=
  h.congr ⟨fun _ => hd ▸ Nat.zero_le room, fun _ => trivial⟩

/-- A bracket takes one from the room. -/
theorem bracket (h : Reads (depth ≤ room) r cs x cs') : Reads (depth + 1 ≤ room + 1) r cs x cs' :=
  h.congr Nat.add_le_add_iff_right.symm

/-- Without room no bracket fits. -/
theorem full (h : Reads False r cs x cs') : Reads (depth + 1 ≤ 0) r cs x cs' :=
  h.congr (iff_of_false not_false (Nat.not_succ_le_zero depth))

end Reads

/-! ### Scalars -/

section Scalars

theorem decodes_text (expected s : String) : Decodes (text expected) room (.string s) s := by
  intro g text rest hg hv _
  cases hv
  exact .scalar rfl ((reads_look hg (by decide)).andThen (reads_string s))

theorem decodes_flag (b : Bool) : Decodes flag room (.boolean b) b := by
  intro g text rest hg hv _
  cases hv <;>
  · exact .scalar rfl ((reads_look hg (by decide)).andThen
      (reads_eat.andThen (reads_literal.andThen .pure)))

theorem decodes_natural (n : UInt64) : Decodes natural room (.natural n.toNat) n := by
  intro g text rest hg hv hrest
  cases hv
  exact .scalar rfl (reads_natural n hg hrest)

theorem decodes_optional_none {r : Reading α} : Decodes (optional r) room .null none := by
  intro g text rest hg hv _
  cases hv
  exact .scalar rfl ((reads_look hg (by decide)).andThen
    (reads_eat.andThen (reads_literal.andThen .pure)))

theorem decodes_optional_some {r : Reading α} {v : Value} {x : α} (h : Decodes r room v x)
    (hv : v ≠ .null) : Decodes (optional r) room v (some x) := by
  intro g text rest hg hs hrest
  obtain ⟨c, tail, rfl, hc, _, hn⟩ := hs.head
  refine (reads_look hg hc).andThen ?_
  split
  · next e => exact absurd (Option.some.inj e) (hn hv)
  · exact (h .nil hs hrest).before .pure

end Scalars

/-! ### Lists -/

section Lists

variable {g g' cs : List Char} {c : Char}

theorem reads_nextElement_end (hg : Blank g) (first : Bool) :
    Reads True (nextElement first) (g ++ ']' :: cs) false (']' :: cs) :=
  (reads_look hg (by decide)).andThen .pure

theorem reads_nextElement_first (hg : Blank g) (hc : isSpace c = false) (hc' : c ≠ ']') :
    Reads True (nextElement true) (g ++ c :: cs) true (c :: cs) := by
  refine (reads_look hg hc).andThen ?_
  split
  · next e => exact absurd (Option.some.inj e) hc'
  · exact .pure
  · next e => cases e

theorem reads_nextElement_more (hg : Blank g) (hg' : Blank g') (hc : isSpace c = false)
    (hc' : c ≠ ']') : Reads True (nextElement false) (g ++ ',' :: (g' ++ c :: cs)) true (c :: cs) := by
  refine (reads_look hg (by decide)).andThen (reads_eat.andThen ((reads_look hg' hc).andThen ?_))
  split
  · next e => exact absurd (Option.some.inj e) hc'
  · exact .pure
  · next e => cases e

theorem reads_endList (hg : Blank g) : Reads True endList (g ++ ']' :: cs) () cs :=
  (reads_look hg (by decide)).andThen reads_eat

/-- The further elements of a list. -/
theorem reads_elements {r : Reading α} {vs : List Value} {xs : List α}
    (h : List.Forall₂ (Decodes r room) vs xs) {text rest : List Char} {fuel : Nat}
    (hvs : SpellsItems vs text rest) (hfuel : vs.length < fuel) :
    Reads (itemsDepth vs ≤ room) (elements r fuel false) text xs (']' :: rest) := by
  induction h generalizing text fuel with
  | nil =>
    obtain ⟨fuel, rfl⟩ := Nat.exists_eq_succ_of_ne_zero (Nat.ne_zero_of_lt hfuel)
    cases hvs with
    | close hg => exact .scalar rfl ((reads_nextElement_end hg false).andThen .pure)
  | @cons v x vs xs hx _ ih =>
    obtain ⟨fuel, rfl⟩ := Nat.exists_eq_succ_of_ne_zero (Nat.ne_zero_of_lt hfuel)
    cases hvs with
    | more hg hg' hv hvs =>
      obtain ⟨c, tail, rfl, hc, hc', _⟩ := hv.head
      have further := ih hvs (Nat.lt_of_succ_lt_succ hfuel)
      refine Reads.congr ?_ Nat.max_le.symm
      exact (reads_nextElement_more hg hg' hc hc').andThen
        ((hx .nil hv hvs.atBreak).bind fun _ => further.before .pure)

/-- Behind the bracket of a list: no elements, or a first one and the further ones. -/
theorem reads_list_content {r : Reading α} {vs : List Value} {xs : List α}
    (h : List.Forall₂ (Decodes r room) vs xs) {text rest : List Char}
    (hvs : Spells (.list vs) ('[' :: text) rest) :
    Reads (itemsDepth vs ≤ room) (do elements r (← rounds) true) text xs (']' :: rest) := by
  cases h with
  | nil =>
    cases hvs with
    | emptyList hg =>
      exact .scalar rfl (reads_rounds.andThen ((reads_nextElement_end hg true).andThen .pure))
  | @cons v x vs xs hx hxs =>
    cases hvs with
    | list hg hv hvs =>
      have enough := hvs.length_lt
      have shorter := hv.length_lt
      obtain ⟨c, tail, rfl, hc, hc', _⟩ := hv.head
      refine reads_rounds.andThen (Reads.congr ?_ Nat.max_le.symm)
      refine (reads_nextElement_first hg hc hc').andThen
        ((hx .nil hv hvs.atBreak).bind fun _ => (reads_elements hxs hvs ?_).before .pure)
      simp only [List.length_append] at enough shorter ⊢
      omega

end Lists

/-- A list, from its elements. -/
theorem decodes_list {r : Reading α} {vs : List Value} {xs : List α}
    (h : List.Forall₂ (Decodes r room) vs xs) :
    Decodes (list (some r)) (room + 1) (.list vs) xs := by
  intro g text rest hg hvs _
  obtain ⟨text, rfl⟩ := hvs.list_head
  exact .bracket ((reads_look hg (by decide)).andThen
    (reads_eat.andThen (reads_enclosed (reads_list_content h hvs) (reads_endList .nil))))

/-- A list whose elements are written one by one. -/
theorem decodes_list_map {r : Reading α} {write : α → Value}
    (h : ∀ x, Decodes r room (write x) x) (xs : List α) :
    Decodes (list (some r)) (room + 1) (.list (xs.map write)) xs :=
  decodes_list (List.forall₂_map_left_iff.2 (List.forall₂_same.2 fun x _ => h x))

/-- Without room there is no list. -/
theorem decodes_list_full {vs : List Value} {xs : List α} :
    Decodes (list none) 0 (.list vs) xs := by
  intro g text rest hg hvs _
  obtain ⟨text, rfl⟩ := hvs.list_head
  exact .full ((reads_look hg (by decide)).andThen reads_failPeek)

/-- A pair, from a list of two. -/
theorem decodes_pair {r : Reading α} {v w : Value} {x y : α} (hx : Decodes r room v x)
    (hy : Decodes r room w y) : Decodes (pair (some r)) (room + 1) (.list [v, w]) (x, y) := by
  intro g text rest hg hvs _
  have hdepth : v.depth ≤ room ∧ w.depth ≤ room ↔ itemsDepth [v, w] ≤ room := by
    simp [itemsDepth_le_iff]
  cases hvs with
  | list hg₁ hv hvs =>
    have hcomma := hvs.atBreak
    cases hvs with
    | more hg₂ hg₃ hw hvs =>
      have hend := hvs.atBreak
      cases hvs with
      | close hg₄ =>
        obtain ⟨c, tail, rfl, hc, hc', _⟩ := hv.head
        obtain ⟨d, tail', rfl, hd, hd', _⟩ := hw.head
        refine .bracket ((reads_look hg (by decide)).andThen (reads_eat.andThen
          (reads_enclosed (Reads.congr ?_ hdepth) (reads_endList hg₄))))
        refine (reads_nextElement_first hg₁ hc hc').andThen ((hx .nil hv hcomma).bind fun _ => ?_)
        exact (reads_nextElement_more hg₂ hg₃ hd hd').andThen ((hy .nil hw hend).before .pure)

/-- Without room there is no pair. -/
theorem decodes_pair_full {vs : List Value} {xy : α × α} :
    Decodes (pair none) 0 (.list vs) xy := by
  intro g text rest hg hvs _
  obtain ⟨text, rfl⟩ := hvs.list_head
  exact .full ((reads_look hg (by decide)).andThen reads_failPeek)

/-! ### Records -/

/-- The key belongs to one of the fields, and reading the value into a draft that knows the keys
seen so far makes it one that knows this key too. -/
def Fills (fields : List (RecordField σ)) (room : Nat) (view : List String → σ) (key : String)
    (v : Value) : Prop :=
  ∃ f, fields.find? (·.name == key) = some f ∧
    ∀ seen, Decodes (f.read (view seen)) room v (view (key :: seen))

section Entries

variable {g g' cs : List Char} {key : String}

theorem reads_nextEntry_end (hg : Blank g) (first : Bool) :
    Reads True (nextEntry first) (g ++ '}' :: cs) false ('}' :: cs) :=
  (reads_look hg (by decide)).andThen .pure

theorem reads_nextEntry_first (hg : Blank g) :
    Reads True (nextEntry true) (g ++ '"' :: cs) true ('"' :: cs) :=
  (reads_look hg (by decide)).andThen .pure

theorem reads_nextEntry_more (hg : Blank g) (hg' : Blank g') :
    Reads True (nextEntry false) (g ++ ',' :: (g' ++ '"' :: cs)) true ('"' :: cs) :=
  (reads_look hg (by decide)).andThen
    (reads_eat.andThen ((reads_look hg' (by decide)).andThen .pure))

theorem reads_endObject (hg : Blank g) : Reads True endObject (g ++ '}' :: cs) () cs :=
  (reads_look hg (by decide)).andThen reads_eat

variable {fields : List (RecordField σ)} {view : List String → σ}

/-- One entry, and then the others. -/
theorem reads_entry {v : Value} {seen : List String} {fuel : Nat} {first : Bool} {d : σ}
    {text mid rest : List Char} {P : Prop} (h : Fills fields room view key v)
    (hnew : key ∉ seen) (he : SpellsEntry (key, v) text mid) (hmid : AtBreak mid)
    (hnext : Reads True (nextEntry first) cs true text)
    (hothers : Reads P (entries fields fuel false (key :: seen) (view (key :: seen))) mid d rest) :
    Reads (v.depth ≤ room ∧ P) (entries fields (fuel + 1) first seen (view seen)) cs d rest := by
  obtain ⟨f, hf, hread⟩ := h
  cases he with
  | mk hg hg' hv =>
    refine hnext.andThen ((reads_string key).andThen ?_)
    simp only [hf, List.contains_eq_mem, hnew, decide_false]
    exact (reads_colon hg).andThen ((hread seen hg' hv hmid).bind fun _ => hothers)

/-- The further entries of an object. -/
theorem reads_entries : ∀ {es : List (String × Value)} {seen : List String} {fuel : Nat}
    {text rest : List Char}, (∀ e ∈ es, Fills fields room view e.1 e.2) →
    (es.map Prod.fst ++ seen).Nodup → SpellsEntries es text rest → es.length < fuel →
    Reads (entriesDepth es ≤ room) (entries fields fuel false seen (view seen)) text
      (view ((es.map Prod.fst).reverse ++ seen)) ('}' :: rest)
  | [], seen, fuel + 1, _, rest, _, _, .close hg, _ =>
    .scalar rfl ((reads_nextEntry_end hg false).andThen .pure)
  | (key, v) :: es, seen, fuel + 1, _, rest, hfill, hkeys, .more hg hg' he hes, hfuel => by
    have hnew : key ∉ es.map Prod.fst ++ seen := (List.nodup_cons.1 hkeys).1
    have others : Reads (entriesDepth es ≤ room)
        (entries fields fuel false (key :: seen) (view (key :: seen))) _
        (view ((es.map Prod.fst).reverse ++ key :: seen)) ('}' :: rest) :=
      reads_entries (fun e he => hfill e (.tail _ he)) (List.nodup_middle.2 hkeys) hes
        (Nat.lt_of_succ_lt_succ hfuel)
    rw [List.map_cons, List.reverse_cons, List.append_assoc, List.singleton_append]
    refine Reads.congr ?_ Nat.max_le.symm
    refine reads_entry (hfill _ (.head _)) (fun h => hnew (List.mem_append_right _ h)) he
      hes.atBreak ?_ others
    obtain ⟨tail, rfl⟩ := he.head
    exact reads_nextEntry_more hg hg'

/-- Behind the bracket of an object: no entries, or a first one and the further ones. -/
theorem reads_object_content {es : List (String × Value)} {text rest : List Char}
    (hfill : ∀ e ∈ es, Fills fields room view e.1 e.2) (hkeys : (es.map Prod.fst).Nodup)
    (hes : Spells (.object es) ('{' :: text) rest) :
    Reads (entriesDepth es ≤ room) (do entries fields (← rounds) true [] (view [])) text
      (view (es.map Prod.fst).reverse) ('}' :: rest) := by
  cases hes with
  | emptyObject hg =>
    exact .scalar rfl (reads_rounds.andThen ((reads_nextEntry_end hg true).andThen .pure))
  | @object g e es text mid rest hg he hes =>
    obtain ⟨key, v⟩ := e
    have enough := hes.length_lt
    have shorter := he.length_lt
    have hnew : key ∉ es.map Prod.fst := (List.nodup_cons.1 hkeys).1
    have others : Reads (entriesDepth es ≤ room)
        (entries fields (g ++ text).length false [key] (view [key])) mid
        (view ((es.map Prod.fst).reverse ++ [key])) ('}' :: rest) := by
      refine reads_entries (fun e he => hfill e (.tail _ he)) ?_ hes ?_
      · exact List.nodup_middle.2 (by rwa [List.append_nil])
      · rw [List.length_append]
        omega
    rw [List.map_cons, List.reverse_cons]
    refine reads_rounds.andThen (Reads.congr ?_ Nat.max_le.symm)
    refine reads_entry (hfill _ (.head _)) List.not_mem_nil he hes.atBreak ?_ others
    obtain ⟨tail, rfl⟩ := he.head
    exact reads_nextEntry_first hg

end Entries

/-- A record, from an object that fills its fields in any order. -/
theorem decodes_record {title : Title} {fields : List (RecordField σ)} {view : List String → σ}
    {finish : Form → σ → Except Fault α} {es : List (String × Value)} {x : α}
    (hfill : ∀ e ∈ es, Fills fields room view e.1 e.2) (hkeys : (es.map Prod.fst).Nodup)
    (hfinish : finish .object (view (es.map Prod.fst).reverse) = .ok x) :
    Decodes (record title (some fields) (view []) finish) (room + 1) (.object es) x := by
  intro g text rest hg hes _
  obtain ⟨text, rfl⟩ := hes.object_head
  -- The draft is turned into the record in front of the closing bracket.
  have content := (reads_object_content hfill hkeys hes).before
    (f := fun d => conclude (finish .object d)) (by rw [hfinish]; exact .pure)
  simp only [bind_assoc] at content
  exact .bracket ((reads_look hg (by decide)).andThen
    (reads_eat.andThen (reads_enclosed content (reads_endObject .nil))))

/-- Without room there is no record. -/
theorem decodes_record_full {title : Title} {blank : σ} {finish : Form → σ → Except Fault α}
    {es : List (String × Value)} {x : α} :
    Decodes (record title none blank finish) 0 (.object es) x := by
  intro g text rest hg hes _
  obtain ⟨text, rfl⟩ := hes.object_head
  exact .full ((reads_look hg (by decide)).andThen reads_failPeek)

/-! ### What an object shows -/

/-- A field of a record as an object may show it. -/
structure Slot where
  key : String
  /-- The values that show the field. -/
  shown : Value → Prop
  /-- Whether the field has its default value, so that it may be left out. -/
  isDefault : Prop := False

/-- The entries show the fields of a record, in any order and each only once. A field that is left
out has its default value. -/
structure Shows (slots : List Slot) (es : List (String × Value)) : Prop where
  keys : (es.map Prod.fst).Nodup
  shown : ∀ e ∈ es, ∃ s ∈ slots, s.key = e.1 ∧ s.shown e.2
  leftOut : ∀ s ∈ slots, s.key ∈ es.map Prod.fst ∨ s.isDefault

/-- A record, from an object that shows its fields. -/
theorem decodes_shown {title : Title} {fields : List (RecordField σ)} (view : List String → σ)
    {finish : Form → σ → Except Fault α} {slots : List Slot} {es : List (String × Value)} {x : α}
    (h : Shows slots es)
    (hfill : ∀ s ∈ slots, ∀ v, s.shown v → Fills fields room view s.key v)
    (hfinish : ∀ seen, (∀ s ∈ slots, s.key ∈ seen ∨ s.isDefault) →
      finish .object (view seen) = .ok x) :
    Decodes (record title (some fields) (view []) finish) (room + 1) (.object es) x := by
  refine decodes_record (fun e he => ?_) h.keys (hfinish _ fun s hs => ?_)
  · obtain ⟨s, hs, hkey, hv⟩ := h.shown e he
    exact hkey ▸ hfill s hs e.2 hv
  · exact (h.leftOut s hs).imp_left List.mem_reverse.2

/-- A field that is read by a reader of its own and then put into the draft. -/
theorem Fills.of_decodes {fields : List (RecordField σ)} {view : List String → σ} {key : String}
    {v : Value} {x : β} {r : Reading β} {put : σ → β → σ}
    (hfield : fields.find? (·.name == key) = some ⟨key, fun d => do return put d (← r)⟩)
    (h : Decodes r room v x) (hput : ∀ seen, put (view seen) x = view (key :: seen)) :
    Fills fields room view key v :=
  ⟨_, hfield, fun seen => hput seen ▸ h.map (put (view seen))⟩

/-- The value of a field in a draft: known once its key has been seen. -/
def known (seen : List String) (key : String) (x : α) : Option α :=
  if key ∈ seen then some x else none

@[simp] theorem known_self (seen : List String) (key : String) (x : α) :
    known (key :: seen) key x = some x := if_pos (.head _)

theorem known_of_mem {seen : List String} {key : String} (h : key ∈ seen) (x : α) :
    known seen key x = some x := if_pos h

@[simp] theorem known_cons {key key' : String} (h : key ≠ key') (seen : List String) (x : α) :
    known (key' :: seen) key x = known seen key x := by
  simp only [known, List.mem_cons, h, false_or]

/-- A field that may be left out if it has its default. -/
theorem known_getD {seen : List String} {key : String} {x d : α} (h : key ∈ seen ∨ x = d) :
    (known seen key x).getD d = x := by
  by_cases hk : key ∈ seen
  · rw [known_of_mem hk, Option.getD_some]
  · rw [known, if_neg hk, Option.getD_none, h.resolve_left hk]

/-! ### Alternatives -/

section Alternatives

variable {choices : List (Choice α)} {c : Choice α} {key : String} {x : α}

theorem reads_choose {cs : List Char} (hc : choices.find? (·.name == key) = some c) :
    Reads True (choose choices) (writeString key ++ cs) c cs := by
  refine (reads_string key).andThen ?_
  rw [hc]
  exact .pure

theorem reads_chooseKey {g cs : List Char} (hg : Blank g)
    (hc : choices.find? (·.name == key) = some c) :
    Reads True (chooseKey choices) (g ++ (writeString key ++ cs)) c cs := by
  have chosen : Reads True (choose choices) (writeString key ++ cs) c cs := reads_choose hc
  rw [writeString, List.cons_append] at chosen ⊢
  exact (reads_look hg (by decide)).andThen chosen

/-- An alternative, from its bare name. -/
theorem decodes_bare {roomy : Bool} (hc : choices.find? (·.name == key) = some c)
    (hx : c.bare = pure x) : Decodes (alternative roomy choices) room (.string key) x := by
  intro g text rest hg hv _
  cases hv
  refine .scalar rfl ((reads_look hg (by decide)).andThen ((reads_choose hc).andThen ?_))
  rw [hx]
  exact .pure

/-- An alternative, from an object with its name and its content. -/
theorem decodes_alternative {v : Value} (hc : choices.find? (·.name == key) = some c)
    (hx : Decodes c.content room v x) :
    Decodes (alternative true choices) (room + 1) (.object [(key, v)]) x := by
  intro g text rest hg hv _
  cases hv with
  | object hg₁ he hes =>
    cases he with
    | mk hg₂ hg₃ hv =>
      cases hes with
      | close hg₄ =>
        refine Reads.congr ?_ (show v.depth ≤ room ↔ max v.depth 0 + 1 ≤ room + 1 by omega)
        refine (reads_look hg (by decide)).andThen (reads_eat.andThen
          ((reads_chooseKey hg₁ hc).andThen ((reads_colon hg₂).andThen
            (Reads.before (hx hg₃ hv ?_) ?_))))
        · exact (SpellsEntries.close hg₄).atBreak
        · exact (reads_look hg₄ (by decide)).andThen (reads_eat.andThen .pure)

/-- Without room there is no content. -/
theorem decodes_alternative_full {es : List (String × Value)} :
    Decodes (alternative false choices) 0 (.object es) x := by
  intro g text rest hg hes _
  obtain ⟨text, rfl⟩ := hes.object_head
  exact .full ((reads_look hg (by decide)).andThen reads_failPeek)

/-- A value that is written by its name. -/
theorem decodes_oneOf {roomy : Bool} {name : α → String} {values : List α}
    (hx : values.find? (name · == name x) = some x) :
    Decodes (oneOf roomy name values) room (.string (name x)) x := by
  have found : (values.map fun v => (⟨name v, pure v, do nothing; pure v⟩ : Choice α)).find?
      (·.name == name x) = some ⟨name x, pure x, do nothing; pure x⟩ := by
    rw [List.find?_map]
    exact congrArg _ hx
  exact decodes_bare found rfl

end Alternatives

end ThreadAffinity.Json
