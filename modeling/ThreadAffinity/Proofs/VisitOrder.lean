import ThreadAffinity.Proofs.SameSearch

/-!
A search beyond the file and an ordinary depth-first search.

The search remembers the path that it stands on and not where it has been, so it may come to one
symbol over and over. An ordinary depth-first search goes nowhere twice; `Outside.visitOrder` lists
the symbols that it comes to. The two find the same tag: a symbol from which nothing can be found
may as well be on the path (`Outside.tagFrom_append_cons_of_none`), and of that sort are all the
symbols that the ordinary search leaves behind (`Outside.findSome?_visitOrder`). So loops neither
hide a tag that override chains lead to nor change which one is found
(`Outside.search_finds_first_reachable`). -/

namespace ThreadAffinity

namespace Outside

variable {o : Outside}

/-- The tag that a symbol has without regard to what it overrides: the published one if an
annotation stands behind that, else the one that the host declares. -/
def ownTag (o : Outside) (s : Symbol) : Option Tag :=
  if o.exclusions.covers s.owner then none
  else (o.publishedTag? s).or ((o.host.get? s).bind (·.tag))

/-- Whether a search goes on from a symbol to another: the host declares that the former overrides
the latter, and nothing gives the former a tag of its own. -/
structure PassesOn (o : Outside) (s p : Symbol) : Prop where
  kept : o.exclusions.covers s.owner = false
  unpublished : o.publishedTag? s = none
  overrides : ∃ ps, o.host.get? s = some ⟨none, ps⟩ ∧ p ∈ ps

theorem ownTag_eq (s : Symbol) : o.ownTag s =
    match o.look s with
    | .found tag => tag
    | .onwards _ => none := by
  unfold ownTag look
  cases o.exclusions.covers s.owner with
  | true => rfl
  | false =>
    rcases o.publishedTag? s with _ | tag
    · rcases o.host.get? s with _ | ⟨_ | tag, ps⟩ <;> rfl
    · rfl

theorem mem_nexts_iff {s p : Symbol} : p ∈ o.nexts s ↔ o.PassesOn s p := by
  refine ⟨fun h => ?_, fun ⟨hkept, hpub, ps, hhost, hp⟩ => ?_⟩
  · unfold nexts look at h
    split at h
    case h_1 => cases h
    case h_2 ps hl =>
      split at hl
      case isTrue => cases hl
      case isFalse hcov =>
        split at hl <;> cases hl
        exact ⟨by simpa using hcov, ‹_›, ps, ‹_›, h⟩
  · simpa [nexts, look, hkept, hpub, hhost] using hp

theorem nexts_of_onwards {s : Symbol} {ps : List Symbol} (h : o.look s = .onwards ps) :
    o.nexts s = ps := by
  rw [nexts, h]

/-- What a search finds for a symbol off its path: the symbol's own tag, else what it finds further
on. -/
theorem tagFrom_eq {path : List Symbol} {s : Symbol} (hs : s ∉ path) :
    o.tagFrom path s = (o.ownTag s).or ((o.nexts s).findSome? (o.tagFrom (s :: path))) := by
  rw [ownTag_eq, nexts]
  cases hl : o.look s with
  | found tag =>
    rw [tagFrom_found hl]
    simp
  | onwards ps => rw [tagFrom_onwards hl, if_neg hs, Option.none_or]

/-- On its path a search finds nothing but tags that symbols have of their own. -/
theorem tagFrom_of_mem {path : List Symbol} {s : Symbol} (hs : s ∈ path)
    (hown : o.ownTag s = none) : o.tagFrom path s = none := by
  rw [ownTag_eq] at hown
  cases hl : o.look s with
  | found tag =>
    simp only [hl] at hown
    rw [tagFrom_found hl, hown]
  | onwards ps => rw [tagFrom_onwards hl, if_pos hs]

/-! ### Dead ends -/

theorem Chain.of_subset {path path' ps c : List Symbol} {t : Tag} (h : o.Chain path ps c t)
    (hsub : path' ⊆ path) : o.Chain path' ps c t := by
  induction h generalizing path' with
  | last hs hl => exact .last hs hl
  | step hs hl hp _ ih =>
    exact .step hs hl (fun hmem => hp (hsub hmem)) (ih (List.cons_subset_cons _ hsub))

/-- From a longer path a search finds no more. -/
theorem tagFrom_eq_none_of_subset {path path' : List Symbol} {s : Symbol} (hsub : path ⊆ path')
    (h : o.tagFrom path s = none) : o.tagFrom path' s = none := by
  have hone : ∀ l, [s].findSome? (o.tagFrom l) = o.tagFrom l s := fun l => by simp
  rw [← hone, findSome_tagFrom_eq_none_iff] at h ⊢
  exact fun c t hc => h c t (hc.of_subset hsub)

/-- A symbol from which nothing can be found may as well be on the path. -/
theorem tagFrom_append_cons_of_none {path : List Symbol} {s : Symbol}
    (h : o.tagFrom path s = none) (above : List Symbol) (q : Symbol) :
    o.tagFrom (above ++ s :: path) q = o.tagFrom (above ++ path) q := by
  cases hl : o.look q with
  | found tag => rw [tagFrom_found hl, tagFrom_found hl]
  | onwards ps =>
    by_cases hq : q ∈ above ++ path
    · have hq' : q ∈ above ++ s :: path := by
        rw [List.mem_append] at hq ⊢
        exact hq.imp id (List.mem_cons_of_mem _)
      rw [tagFrom_onwards hl, tagFrom_onwards hl, if_pos hq, if_pos hq']
    · by_cases hqs : q = s
      · subst hqs
        rw [tagFrom_eq_none_of_subset (List.subset_append_right ..) h, tagFrom_onwards hl,
          if_pos (by simp)]
      · have hlt := offPath_host_lt hl hq
        rw [tagFrom_onwards hl, tagFrom_onwards hl, if_neg hq, if_neg (by simp_all)]
        exact findSome?_congr fun p _ => tagFrom_append_cons_of_none h (q :: above) p
termination_by offPath o.host.keys (above ++ path)

/-! ### The ordinary search -/

theorem offPath_cons_le (a : Symbol) (symbols path : List Symbol) :
    offPath symbols (a :: path) ≤ offPath symbols path :=
  Finset.card_le_card (Finset.sdiff_subset_sdiff subset_rfl (by simp))

/-- A symbol that is new to an ordinary search uses up one of the host's, or leads nowhere. -/
theorem offPath_lt_or_nexts {s : Symbol} {seen : List Symbol} (hs : s ∉ seen) :
    offPath o.host.keys (s :: seen) < offPath o.host.keys seen ∨
      offPath o.host.keys (s :: seen) ≤ offPath o.host.keys seen ∧ o.nexts s = [] := by
  cases hl : o.look s with
  | found tag => exact Or.inr ⟨offPath_cons_le .., by rw [nexts, hl]⟩
  | onwards ps => exact Or.inl (offPath_host_lt hl hs)

/-- The symbols that an ordinary depth-first search comes to, in this order, when it has been to
those of the first list and has yet to go to those of the second. It goes on from left to right, and
nowhere twice. -/
def visitOrder (o : Outside) : (seen waiting : List Symbol) → List Symbol
  | _, [] => []
  | seen, s :: waiting =>
    if s ∈ seen then o.visitOrder seen waiting
    else s :: o.visitOrder (s :: seen) (o.nexts s ++ waiting)
termination_by seen waiting => (offPath o.host.keys seen, waiting.length)
decreasing_by
  · exact .right _ (by simp)
  · rename_i hs
    rcases offPath_lt_or_nexts hs with hlt | ⟨hle, hnil⟩
    · exact .left _ _ hlt
    · rw [hnil, List.nil_append]
      rcases Nat.lt_or_eq_of_le hle with hlt | heq
      · exact .left _ _ hlt
      · rw [heq]
        exact .right _ (by simp)

/-- An ordinary search goes nowhere twice. -/
theorem nodup_visitOrder (seen waiting : List Symbol) :
    (o.visitOrder seen waiting).Nodup ∧ ∀ q ∈ o.visitOrder seen waiting, q ∉ seen := by
  fun_induction visitOrder o seen waiting with
  | case1 seen => exact ⟨List.nodup_nil, by simp⟩
  | case2 seen s waiting hs ih => exact ih
  | case3 seen s waiting hs ih =>
    obtain ⟨hnodup, hnew⟩ := ih
    refine ⟨List.nodup_cons.2 ⟨fun hmem => hnew s hmem List.mem_cons_self, hnodup⟩, fun q hq => ?_⟩
    rcases List.mem_cons.1 hq with rfl | hq
    · exact hs
    · exact fun hmem => hnew q hq (List.mem_cons_of_mem _ hmem)

theorem reached_of_mem_visitOrder (seen waiting : List Symbol) :
    ∀ q ∈ o.visitOrder seen waiting, o.Reached waiting q := by
  fun_induction visitOrder o seen waiting with
  | case1 seen => simp
  | case2 seen s waiting hs ih =>
    intro q hq
    exact (ih q hq).trans fun p hp => .start (List.mem_cons_of_mem _ hp)
  | case3 seen s waiting hs ih =>
    intro q hq
    rcases List.mem_cons.1 hq with rfl | hq
    · exact .start List.mem_cons_self
    · refine (ih q hq).trans fun p hp => ?_
      rcases List.mem_append.1 hp with hp | hp
      · cases hl : o.look s with
        | found tag => simp [nexts, hl] at hp
        | onwards ps => exact (Reached.start List.mem_cons_self).step hl (nexts_of_onwards hl ▸ hp)
      · exact .start (List.mem_cons_of_mem _ hp)

/-- In the end an ordinary search has been to all that it had yet to go to, and to all that follows
from where it came. -/
theorem visitOrder_closed (seen waiting : List Symbol) :
    waiting ⊆ seen ++ o.visitOrder seen waiting ∧
      ∀ s ∈ o.visitOrder seen waiting, o.nexts s ⊆ seen ++ o.visitOrder seen waiting := by
  fun_induction visitOrder o seen waiting with
  | case1 seen => exact ⟨List.nil_subset _, by simp⟩
  | case2 seen s waiting hs ih =>
    exact ⟨List.cons_subset.2 ⟨List.mem_append_left _ hs, ih.1⟩, ih.2⟩
  | case3 seen s waiting hs ih =>
    obtain ⟨hwaiting, horder⟩ := ih
    have hsame : s :: seen ++ o.visitOrder (s :: seen) (o.nexts s ++ waiting) ⊆
        seen ++ s :: o.visitOrder (s :: seen) (o.nexts s ++ waiting) :=
      List.perm_middle.symm.subset
    obtain ⟨hnexts, hrest⟩ := List.append_subset.1 hwaiting
    refine ⟨List.cons_subset.2 ⟨by simp, List.Subset.trans hrest hsame⟩, fun q hq => ?_⟩
    rcases List.mem_cons.1 hq with rfl | hq
    · exact List.Subset.trans hnexts hsame
    · exact List.Subset.trans (horder q hq) hsame

/-- An ordinary search comes to just those symbols that a search comes to. -/
theorem mem_visitOrder_iff {ps : List Symbol} {q : Symbol} :
    q ∈ o.visitOrder [] ps ↔ o.Reached ps q := by
  refine ⟨reached_of_mem_visitOrder [] ps q, fun h => ?_⟩
  obtain ⟨hstart, hclosed⟩ := visitOrder_closed (o := o) [] ps
  exact h.mem_of_closed hstart fun s hs qs hl => nexts_of_onwards hl ▸ hclosed s hs

/-- A search finds the first tag that an ordinary search comes by. -/
theorem findSome?_visitOrder (seen waiting : List Symbol) (hseen : ∀ q ∈ seen, o.ownTag q = none) :
    (o.visitOrder seen waiting).findSome? o.ownTag = waiting.findSome? (o.tagFrom seen) := by
  fun_induction visitOrder o seen waiting with
  | case1 seen => rfl
  | case2 seen s waiting hs ih =>
    rw [ih hseen, List.findSome?_cons, tagFrom_of_mem hs (hseen s hs)]
  | case3 seen s waiting hs ih =>
    rw [List.findSome?_cons, List.findSome?_cons, tagFrom_eq hs]
    cases hown : o.ownTag s with
    | some t => rw [Option.some_or]
    | none =>
      rw [ih (List.forall_mem_cons.2 ⟨hown, hseen⟩), List.findSome?_append, Option.none_or]
      cases hnexts : (o.nexts s).findSome? (o.tagFrom (s :: seen)) with
      | some t => rw [Option.some_or]
      | none =>
        -- Nothing can be found from here, so it makes no difference to have been here.
        have hdead : o.tagFrom seen s = none := by rw [tagFrom_eq hs, hown, hnexts, Option.none_or]
        rw [Option.none_or]
        exact findSome?_congr fun q _ => tagFrom_append_cons_of_none hdead [] q

/-! ### Override chains of any shape -/

theorem reached_iff {s q : Symbol} :
    o.Reached [s] q ↔ Relation.ReflTransGen o.PassesOn s q := by
  refine ⟨fun h => ?_, fun h => ?_⟩
  · induction h with
    | start hs => exact List.mem_singleton.1 hs ▸ .refl
    | step _ hl hq ih => exact ih.tail (mem_nexts_iff.1 (nexts_of_onwards hl ▸ hq))
  · induction h with
    | refl => exact .start List.mem_cons_self
    | @tail p q _ hstep ih =>
      have hq := mem_nexts_iff.2 hstep
      cases hl : o.look p with
      | found tag => simp [nexts, hl] at hq
      | onwards ps => exact ih.step hl (nexts_of_onwards hl ▸ hq)

/-- The search for the tag of a symbol never fails for lack of depth. It finds a tag exactly when
override chains lead from the symbol to one with a tag of its own, loops or no loops; and it finds
the tag that comes first in the order of an ordinary depth-first search, which goes to each symbol
that chains lead to, and to none of them twice. -/
theorem search_finds_first_reachable (o : Outside) (s : Symbol) :
    (∃ log, o.search o.depth s {} = some ((o.tagOf s {}).1, ⟨[], log⟩)) ∧
    ((o.tagOf s {}).1.isSome ↔
      ∃ q, Relation.ReflTransGen o.PassesOn s q ∧ (o.ownTag q).isSome) ∧
    (o.tagOf s {}).1 = (o.visitOrder [] [s]).findSome? o.ownTag ∧
    (o.visitOrder [] [s]).Nodup ∧
    ∀ q, q ∈ o.visitOrder [] [s] ↔ Relation.ReflTransGen o.PassesOn s q := by
  have horder : ∀ q, q ∈ o.visitOrder [] [s] ↔ Relation.ReflTransGen o.PassesOn s q := fun q => by
    rw [mem_visitOrder_iff, reached_iff]
  have hfirst : (o.tagOf s {}).1 = (o.visitOrder [] [s]).findSome? o.ownTag := by
    rw [findSome?_visitOrder [] [s] (by simp), tagOf_fst, List.findSome?_singleton]
  refine ⟨?_, ?_, hfirst, (nodup_visitOrder [] [s]).1, horder⟩
  · obtain ⟨⟨path, log⟩, he, hpath⟩ := search_eq o.depth s {} (offPath_host_lt_depth [])
    obtain rfl : path = [] := hpath
    exact ⟨log, by rw [he, tagOf_fst]⟩
  · rw [hfirst, List.findSome?_isSome_iff]
    exact exists_congr fun q => and_congr_left fun _ => horder q

/-- Jobs, where the first method that one overrides leads back to it, and the second is tagged. -/
def jobs : HostTable := SymbolMap.ofList [
  (⟨"lib.Job#run()"⟩, { overrides := [⟨"lib.Task#run()"⟩, ⟨"lib.Worker#run()"⟩] }),
  (⟨"lib.Task#run()"⟩, { overrides := [⟨"lib.Job#run()"⟩] }),
  (⟨"lib.Worker#run()"⟩, { tag := some .worker })]

/-- The loop does not hide the tag behind it. -/
example : (tagOf { store := {}, host := jobs, exclusions := {} } ⟨"lib.Job#run()"⟩ {}).1 =
    some .worker := by
  decide

end Outside

end ThreadAffinity
