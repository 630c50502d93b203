import Mathlib.Data.Finset.Card
import Mathlib.Data.Finset.Dedup
import ThreadAffinity.Outside
import ThreadAffinity.Proofs.SymbolMaps

/-!
The search beyond the file, freed of its depth and its log.

What a search makes of one symbol is a `Look`: an answer, or the symbols to look at instead. From
looks alone `Outside.tagFrom` says what the search finds from a path, by recursion on the number of
host symbols that are not on the path yet. The search itself agrees with it at every sufficient
depth and always comes back to the path that it started from (`search_eq`). What else a run does, to
its log for one, follows by induction over the ways that it can go (`search_induct`). What it finds
is the tag at the end of the first override chain, in depth-first order, that meets no symbol twice
(`findSome_tagFrom_eq_some_iff`), whatever loops the host's declarations form. -/

namespace ThreadAffinity

/-- How many of the symbols are not on the path. -/
def offPath (symbols path : List Symbol) : Nat := (symbols.toFinset \ path.toFinset).card

/-- A step onto one of the symbols leaves fewer of them off the path. -/
theorem offPath_cons_lt {a : Symbol} {symbols path : List Symbol} (ha : a ∈ symbols)
    (hp : a ∉ path) : offPath symbols (a :: path) < offPath symbols path := by
  refine Finset.card_lt_card ⟨Finset.sdiff_subset_sdiff subset_rfl (by simp), fun hsub => ?_⟩
  have hmem := hsub (show a ∈ symbols.toFinset \ path.toFinset by simp [ha, hp])
  simp at hmem

theorem offPath_le_length (symbols path : List Symbol) : offPath symbols path ≤ symbols.length :=
  (Finset.card_le_card Finset.sdiff_subset).trans (List.toFinset_card_le symbols)

theorem findSome?_congr {α β : Type} {f g : α → Option β} :
    ∀ {l : List α}, (∀ a ∈ l, f a = g a) → l.findSome? f = l.findSome? g
  | [], _ => rfl
  | a :: l, h => by
    rw [List.findSome?_cons, List.findSome?_cons, h a List.mem_cons_self,
      findSome?_congr fun b hb => h b (List.mem_cons_of_mem _ hb)]

/-- What a search makes of a symbol. -/
inductive Look where
  /-- The search ends here, with this answer. -/
  | found (tag : Option Tag)
  /-- The host knows the symbol without a tag; it overrides these. -/
  | onwards (overridden : List Symbol)

namespace Outside

variable {o : Outside}

/-- What a search makes of a symbol that it comes to. -/
def look (o : Outside) (s : Symbol) : Look :=
  if o.exclusions.covers s.owner then .found none
  else
    match o.publishedTag? s, o.host.get? s with
    | some tag, _ => .found (some tag)
    | none, none => .found none
    | none, some ⟨some tag, _⟩ => .found (some tag)
    | none, some ⟨none, overridden⟩ => .onwards overridden

theorem publishedTag?_eq (s : Symbol) :
    o.publishedTag? s = ((o.store.get? s).filter (·.origin.isDeclared)).map (·.tag) := by
  unfold publishedTag?
  cases o.store.get? s with
  | none => rfl
  | some t => cases hd : t.origin.isDeclared <;> simp [hd]

/-- Of a symbol that the host does not declare a search finds the published tag. -/
theorem look_of_undeclared {s : Symbol} (hcov : o.exclusions.covers s.owner = false)
    (hhost : o.host.get? s = none) : o.look s = .found (o.publishedTag? s) := by
  rw [look, hcov, if_neg Bool.false_ne_true, hhost]
  cases o.publishedTag? s <;> rfl

theorem host_of_look {s : Symbol} {ps : List Symbol} (h : o.look s = .onwards ps) :
    o.host.get? s = some ⟨none, ps⟩ := by
  unfold look at h
  split at h
  · cases h
  · split at h <;> simp_all

theorem offPath_host_lt {s : Symbol} {ps path : List Symbol} (h : o.look s = .onwards ps)
    (hp : s ∉ path) : offPath o.host.keys (s :: path) < offPath o.host.keys path :=
  offPath_cons_lt (SymbolMap.mem_keys_of_get? (host_of_look h)) hp

theorem offPath_host_lt_depth (path : List Symbol) : offPath o.host.keys path < o.depth :=
  Nat.lt_succ_of_le ((offPath_le_length _ path).trans (by simp [SymbolMap.keys, SymbolMap.size]))

/-- The tag that a search finds for a symbol when it stands on the path. -/
def tagFrom (o : Outside) (path : List Symbol) (s : Symbol) : Option Tag :=
  match _hl : o.look s with
  | .found tag => tag
  | .onwards ps => if _hs : s ∈ path then none else ps.findSome? (o.tagFrom (s :: path))
termination_by offPath o.host.keys path
decreasing_by exact offPath_host_lt _hl _hs

theorem tagFrom_found {path : List Symbol} {s : Symbol} {tag : Option Tag}
    (h : o.look s = .found tag) : o.tagFrom path s = tag := by
  rw [tagFrom]
  split <;> simp_all

theorem tagFrom_onwards {path : List Symbol} {s : Symbol} {ps : List Symbol}
    (h : o.look s = .onwards ps) :
    o.tagFrom path s = if s ∈ path then none else ps.findSome? (o.tagFrom (s :: path)) := by
  rw [tagFrom]
  split <;> simp_all

/-! ### The search agrees -/

theorem search_succ (n : Nat) (s : Symbol) (t : Trail) :
    o.search (n + 1) s t =
      match o.look s with
      | .found tag => some (tag, t)
      | .onwards ps =>
        if t.path.contains s then some (none, t.note (.outsideLoop s))
        else (firstTag (o.search n) ps (t.enter s)).map fun f => (f.1, f.2.leave s) := by
  unfold search look
  split
  · rfl
  · rcases o.publishedTag? s with _ | tag
    · rcases o.host.get? s with _ | ⟨_ | tag, ps⟩
      · rfl
      · dsimp only
        split
        · rfl
        · split <;> simp_all
      · rfl
    · rfl

theorem firstTag_eq {search : Symbol → Trail → Option (Option Tag × Trail)}
    {answer : Symbol → Option Tag} {path : List Symbol} :
    ∀ {ps : List Symbol},
      (∀ p ∈ ps, ∀ t : Trail, t.path = path →
        ∃ t', search p t = some (answer p, t') ∧ t'.path = path) →
      ∀ t : Trail, t.path = path →
        ∃ t', firstTag search ps t = some (ps.findSome? answer, t') ∧ t'.path = path
  | [], _, t, ht => ⟨t, rfl, ht⟩
  | p :: ps, h, t, ht => by
    obtain ⟨t', he, hp⟩ := h p List.mem_cons_self t ht
    cases ha : answer p with
    | some tag => exact ⟨t', by simp [firstTag, he, ha], hp⟩
    | none =>
      obtain ⟨t'', he', hp'⟩ := firstTag_eq (fun q hq => h q (List.mem_cons_of_mem _ hq)) t' hp
      exact ⟨t'', by simp [firstTag, he, ha, he'], hp'⟩

/-- A search that is deep enough finds what `tagFrom` says and comes back to its path. -/
theorem search_eq : ∀ (n : Nat) (s : Symbol) (t : Trail), offPath o.host.keys t.path < n →
    ∃ t', o.search n s t = some (o.tagFrom t.path s, t') ∧ t'.path = t.path
  | n + 1, s, t, hn => by
    rw [search_succ]
    cases hl : o.look s with
    | found tag => exact ⟨t, by rw [tagFrom_found hl], rfl⟩
    | onwards ps =>
      rw [tagFrom_onwards hl]
      by_cases hs : s ∈ t.path
      · exact ⟨t.note (.outsideLoop s), by simp [hs], rfl⟩
      · have hlt := offPath_host_lt hl hs
        have hone : ∀ p ∈ ps, ∀ τ : Trail, τ.path = s :: t.path →
            ∃ τ', o.search n p τ = some (o.tagFrom (s :: t.path) p, τ') ∧ τ'.path = s :: t.path :=
          fun p _ τ hτ => hτ ▸ search_eq n p τ (by rw [hτ]; omega)
        obtain ⟨t', he, hp⟩ := firstTag_eq hone (t.enter s) rfl
        refine ⟨t'.leave s, by simp [hs, he], ?_⟩
        simp [Trail.leave, hp]

/-- The search has the depth that it needs. -/
theorem search_depth_eq (s : Symbol) (t : Trail) : o.search o.depth s t = some (o.tagOf s t) := by
  obtain ⟨t', he, -⟩ := search_eq o.depth s t (offPath_host_lt_depth t.path)
  rw [tagOf, he, Option.getD_some]

@[simp]
theorem tagOf_fst (s : Symbol) (t : Trail) : (o.tagOf s t).1 = o.tagFrom t.path s := by
  obtain ⟨t', he, -⟩ := search_eq o.depth s t (offPath_host_lt_depth t.path)
  rw [tagOf, he, Option.getD_some]

@[simp]
theorem tagOf_snd_path (s : Symbol) (t : Trail) : (o.tagOf s t).2.path = t.path := by
  obtain ⟨t', he, hp⟩ := search_eq o.depth s t (offPath_host_lt_depth t.path)
  rw [tagOf, he, Option.getD_some, hp]

theorem tagOfFirst_fst (ps : List Symbol) (t : Trail) :
    (o.tagOfFirst ps t).1 = ps.findSome? (o.tagFrom t.path) := by
  have hone : ∀ p ∈ ps, ∀ τ : Trail, τ.path = t.path →
      ∃ τ', o.search o.depth p τ = some (o.tagFrom t.path p, τ') ∧ τ'.path = t.path :=
    fun p _ τ hτ => hτ ▸ search_eq o.depth p τ (offPath_host_lt_depth τ.path)
  obtain ⟨t', he, -⟩ := firstTag_eq hone t rfl
  rw [tagOfFirst, he, Option.getD_some]

/-! ### Induction over a run -/

/-- What holds of each way in which the first tag of several symbols is found holds of every run. -/
theorem firstTag_induct {search : Symbol → Trail → Option (Option Tag × Trail)}
    {P : Symbol → Trail → Option Tag → Trail → Prop}
    {Q : List Symbol → Trail → Option Tag → Trail → Prop}
    (nil : ∀ t, Q [] t none t)
    (hit : ∀ s ss t tag t', P s t (some tag) t' → Q (s :: ss) t (some tag) t')
    (miss : ∀ s ss t t' tag t'', P s t none t' → Q ss t' tag t'' → Q (s :: ss) t tag t'')
    (h : ∀ s t tag t', search s t = some (tag, t') → P s t tag t') :
    ∀ ss t tag t', firstTag search ss t = some (tag, t') → Q ss t tag t'
  | [], t, tag, t', he => by
    obtain ⟨rfl, rfl⟩ : none = tag ∧ t = t' := by simpa [firstTag] using he
    exact nil t
  | s :: ss, t, tag, t', he => by
    rw [firstTag] at he
    cases hs : search s t with
    | none => simp [hs] at he
    | some found =>
      obtain ⟨_ | first, t₁⟩ := found
      · rw [hs] at he
        have hrest := firstTag_induct nil hit miss h ss t₁ tag t' he
        exact miss s ss t t₁ tag t' (h s t none t₁ hs) hrest
      · obtain ⟨rfl, rfl⟩ : some first = tag ∧ t₁ = t' := by simpa [hs] using he
        exact hit s ss t first t₁ (h s t _ _ hs)

/-- What holds of each way that a search can go holds of every run that returns. -/
theorem search_induct {P : Symbol → Trail → Option Tag → Trail → Prop}
    {Q : List Symbol → Trail → Option Tag → Trail → Prop}
    (found : ∀ s t tag, o.look s = .found tag → P s t tag t)
    (loop : ∀ s t ps, o.look s = .onwards ps → s ∈ t.path → P s t none (t.note (.outsideLoop s)))
    (onwards : ∀ s t ps tag t', o.look s = .onwards ps → s ∉ t.path → Q ps (t.enter s) tag t' →
      P s t tag (t'.leave s))
    (nil : ∀ t, Q [] t none t)
    (hit : ∀ s ss t tag t', P s t (some tag) t' → Q (s :: ss) t (some tag) t')
    (miss : ∀ s ss t t' tag t'', P s t none t' → Q ss t' tag t'' → Q (s :: ss) t tag t'') :
    ∀ n s t tag t', o.search n s t = some (tag, t') → P s t tag t'
  | 0, _, _, _, _, h => by simp [search] at h
  | n + 1, s, t, tag, t', h => by
    rw [search_succ] at h
    cases hl : o.look s with
    | found answer =>
      obtain ⟨rfl, rfl⟩ : answer = tag ∧ t = t' := by simpa [hl] using h
      exact found s t answer hl
    | onwards ps =>
      by_cases hs : s ∈ t.path
      · obtain ⟨rfl, rfl⟩ : none = tag ∧ t.note (.outsideLoop s) = t' := by
          simpa [hl, hs] using h
        exact loop s t ps hl hs
      · simp only [hl, List.contains_iff_mem, hs, if_false, Option.map_eq_some_iff,
          Prod.mk.injEq] at h
        obtain ⟨⟨first, t₁⟩, hfirst, rfl, rfl⟩ := h
        have hone := search_induct found loop onwards nil hit miss n
        exact onwards s t ps first t₁ hl hs (firstTag_induct nil hit miss hone _ _ _ _ hfirst)

/-! ### The first override chain -/

/-- An override chain that starts at one of the symbols and ends at one that has the tag. All but the
last are host declarations without a tag, and none of those is on the path or met twice. -/
inductive Chain (o : Outside) : List Symbol → List Symbol → List Symbol → Tag → Prop
  | last {path ps : List Symbol} {s : Symbol} {t : Tag} :
    s ∈ ps → o.look s = .found (some t) → Chain o path ps [s] t
  | step {path ps qs c : List Symbol} {s : Symbol} {t : Tag} :
    s ∈ ps → o.look s = .onwards qs → s ∉ path → Chain o (s :: path) qs c t →
      Chain o path ps (s :: c) t

/-- The symbols that a search looks at after a symbol, if that does not end it. -/
def nexts (o : Outside) (s : Symbol) : List Symbol :=
  match o.look s with
  | .found _ => []
  | .onwards ps => ps

/-- Whether one chain comes before another in depth-first order: where they part, it goes on with the
symbol that is listed earlier. -/
def Earlier (o : Outside) : List Symbol → List Symbol → List Symbol → Prop
  | ps, a :: c, b :: d => ps.idxOf a < ps.idxOf b ∨ a = b ∧ o.Earlier (o.nexts a) c d
  | _, _, _ => False

/-- The first of the chains that start at one of the symbols. -/
def FirstChain (o : Outside) (path ps c : List Symbol) (t : Tag) : Prop :=
  o.Chain path ps c t ∧ ∀ c' t', o.Chain path ps c' t' → c' = c ∨ o.Earlier ps c c'

/-- Where a search finds nothing there is no chain. -/
theorem Chain.findSome_tagFrom {path ps c : List Symbol} {t : Tag} (h : o.Chain path ps c t) :
    ps.findSome? (o.tagFrom path) ≠ none := by
  induction h with
  | last hs hl =>
    exact fun hn => by simpa [tagFrom_found hl] using List.findSome?_eq_none_iff.1 hn _ hs
  | step hs hl hp _ ih =>
    intro hn
    have hnone := List.findSome?_eq_none_iff.1 hn _ hs
    rw [tagFrom_onwards hl, if_neg hp] at hnone
    exact ih hnone

/-- A chain has a head, and it is a chain from any symbols that its head is one of. -/
theorem Chain.exists_head {path ps c : List Symbol} {t : Tag} (h : o.Chain path ps c t) :
    ∃ s d, c = s :: d ∧ s ∈ ps ∧ ∀ qs, s ∈ qs → o.Chain path qs c t := by
  cases h with
  | last hs hl => exact ⟨_, [], rfl, hs, fun _ hq => .last hq hl⟩
  | step hs hl hp hc => exact ⟨_, _, rfl, hs, fun _ hq => .step hq hl hp hc⟩

theorem Chain.tag_unique {path path' ps ps' c : List Symbol} {t t' : Tag}
    (h : o.Chain path ps c t) (h' : o.Chain path' ps' c t') : t = t' := by
  induction h generalizing path' ps' with
  | last _ hl =>
    cases h' with
    | last _ hl' => simpa [hl] using hl'
    | step _ _ _ hc => cases hc
  | step _ _ _ hc ih =>
    cases h' with
    | last => cases hc
    | step _ _ _ hc' => exact ih hc'

theorem Earlier.asymm : ∀ {ps c d : List Symbol}, o.Earlier ps c d → ¬ o.Earlier ps d c
  | ps, a :: c, b :: d, h, h' => by
    simp only [Earlier] at h h'
    rcases h with h | ⟨rfl, h⟩
    · rcases h' with h' | ⟨rfl, -⟩ <;> omega
    · rcases h' with h' | ⟨-, h'⟩
      · omega
      · exact h.asymm h'

theorem FirstChain.unique {path ps c c' : List Symbol} {t t' : Tag}
    (h : o.FirstChain path ps c t) (h' : o.FirstChain path ps c' t') : c = c' ∧ t = t' := by
  have hc : c = c' := by
    rcases h.2 c' t' h'.1 with he | he
    · exact he.symm
    · rcases h'.2 c t h.1 with he' | he'
      · exact he'
      · exact absurd he' he.asymm
  subst hc
  exact ⟨rfl, h.1.tag_unique h'.1⟩

/-- A symbol before which the search finds nothing comes before the head of every other chain. -/
theorem Earlier.of_skipped {path l₁ l₂ c c' : List Symbol} {a : Symbol} {t' : Tag}
    (ha : a ∉ l₁) (hskip : ∀ x ∈ l₁, o.tagFrom path x = none)
    (h' : o.Chain path (l₁ ++ a :: l₂) c' t')
    (hsame : ∀ d, c' = a :: d → d = c ∨ o.Earlier (o.nexts a) c d) :
    c' = a :: c ∨ o.Earlier (l₁ ++ a :: l₂) (a :: c) c' := by
  obtain ⟨b, d, rfl, hb, hfrom⟩ := h'.exists_head
  have hb₁ : b ∉ l₁ := fun hmem =>
    (hfrom [b] List.mem_cons_self).findSome_tagFrom (by simp [hskip b hmem])
  by_cases hab : b = a
  · subst hab
    rcases hsame d rfl with rfl | he
    · exact Or.inl rfl
    · exact Or.inr (Or.inr ⟨rfl, he⟩)
  · refine Or.inr (Or.inl ?_)
    rw [List.idxOf_append_of_notMem ha, List.idxOf_append_of_notMem hb₁, List.idxOf_cons_self,
      List.idxOf_cons_ne _ (Ne.symm hab)]
    omega

/-- What a search finds ends a first chain. -/
theorem exists_firstChain (path ps : List Symbol) (t : Tag)
    (h : ps.findSome? (o.tagFrom path) = some t) : ∃ c, o.FirstChain path ps c t := by
  obtain ⟨l₁, a, l₂, rfl, hat, hskip⟩ := List.findSome?_eq_some_iff.1 h
  have ha : a ∉ l₁ := fun hmem => by simp [hskip a hmem] at hat
  have hmem : a ∈ l₁ ++ a :: l₂ := by simp
  cases hl : o.look a with
  | found tag =>
    rw [tagFrom_found hl] at hat
    subst hat
    refine ⟨[a], .last hmem hl, fun c' t' h' => Earlier.of_skipped ha hskip h' ?_⟩
    rintro d rfl
    cases h' with
    | last => exact Or.inl rfl
    | step _ hl' => simp [hl] at hl'
  | onwards qs =>
    rw [tagFrom_onwards hl] at hat
    split at hat
    · cases hat
    · rename_i hp
      have hlt := offPath_host_lt hl hp
      obtain ⟨c, hc, hfirst⟩ := exists_firstChain (a :: path) qs t hat
      refine ⟨a :: c, .step hmem hl hp hc, fun c' t' h' => Earlier.of_skipped ha hskip h' ?_⟩
      rintro d rfl
      cases h' with
      | last _ hl' => simp [hl] at hl'
      | step _ hl' _ hd =>
        obtain rfl : qs = _ := by simpa [hl] using hl'
        simpa [nexts, hl] using hfirst d t' hd
termination_by offPath o.host.keys path

/-- A search finds exactly the tag at the end of the first chain. -/
theorem findSome_tagFrom_eq_some_iff {path ps : List Symbol} {t : Tag} :
    ps.findSome? (o.tagFrom path) = some t ↔ ∃ c, o.FirstChain path ps c t := by
  refine ⟨exists_firstChain path ps t, fun ⟨c, hc⟩ => ?_⟩
  obtain ⟨t', ht'⟩ := Option.ne_none_iff_exists'.1 hc.1.findSome_tagFrom
  obtain ⟨c', hc'⟩ := exists_firstChain path ps t' ht'
  rw [ht', (hc'.unique hc).2]

/-- A search finds nothing exactly when there is no chain. -/
theorem findSome_tagFrom_eq_none_iff {path ps : List Symbol} :
    ps.findSome? (o.tagFrom path) = none ↔ ∀ c t, ¬ o.Chain path ps c t := by
  refine ⟨fun hn c t hc => hc.findSome_tagFrom hn, fun h => ?_⟩
  by_contra hne
  obtain ⟨t, ht⟩ := Option.ne_none_iff_exists'.1 hne
  obtain ⟨c, hc⟩ := exists_firstChain path ps t ht
  exact h c t hc.1

end Outside

end ThreadAffinity
