import ThreadAffinity.Proofs.Lineage

/-!
The warning about override loops.

The search for declared tags warns when it comes back to a member that it stands on. Whatever it
stands on leads down to the member in hand, so a member that is warned of overrides itself, over one
or more steps (`Resolver.settle_loops`). And as long as there is no warning, every member is settled
after all those of the file that it overrides (`Resolver.Descends`), which no loop would allow. So the
warnings tell exactly whether overrides within the file form a loop
(`SourceUnit.loop_warnings_iff`); the searches beyond the file, which use the same path, have a
warning of their own and do not disturb this one (`Outside.loops_search`). -/

namespace ThreadAffinity

/-- The member of the file that the event says overrides itself. -/
def Event.looping? : Event → Option Symbol
  | overrideLoop s => some s
  | _ => none

/-- Whether the event warns of an override chain of the file. -/
def Event.IsLoopWarning (e : Event) : Prop :=
  e.level = .warn ∧ e.message = "override chain loops back on itself"

theorem Event.isLoopWarning_iff {e : Event} : e.IsLoopWarning ↔ ∃ s, e = .overrideLoop s := by
  refine ⟨fun ⟨hlevel, hmessage⟩ => ?_, fun ⟨s, hs⟩ => hs ▸ ⟨rfl, rfl⟩⟩
  cases e with
  | overrideLoop s => exact ⟨s, rfl⟩
  | outsideLoop _ | unknownTarget _ | storeSealed _ | listingNotReset | listingNotWritten
  | notRendered _ _ =>
    unfold message at hmessage
    dsimp only at hmessage
    exact absurd hmessage (by decide)
  | reported d =>
    rw [level] at hlevel
    split at hlevel <;> cases hlevel
  | _ => cases hlevel

/-- The members that a log warns of. -/
def loopsOf (log : List Event) : List Symbol := log.filterMap Event.looping?

theorem mem_loopsOf_iff {log : List Event} {s : Symbol} :
    s ∈ loopsOf log ↔ .overrideLoop s ∈ log := by
  simp only [loopsOf, List.mem_filterMap]
  refine ⟨fun ⟨e, he, hs⟩ => ?_, fun h => ⟨_, h, rfl⟩⟩
  cases e <;> simp_all [Event.looping?]

@[simp]
theorem loopsOf_append (log log' : List Event) :
    loopsOf (log ++ log') = loopsOf log ++ loopsOf log' :=
  List.filterMap_append ..

/-! ### Searches beyond the file -/

namespace Outside

variable {o : Outside}

/-- A search beyond the file warns of no member of the file. -/
theorem loops_search {n : Nat} {s : Symbol} {t t' : Trail} {tag : Option Tag}
    (h : o.search n s t = some (tag, t')) : loopsOf t'.log = loopsOf t.log := by
  refine search_induct (P := fun _ t _ t' => loopsOf t'.log = loopsOf t.log)
    (Q := fun _ t _ t' => loopsOf t'.log = loopsOf t.log)
    ?found ?loop ?onwards ?nil ?hit ?miss n s t tag t' h
  case loop => exact fun s t _ _ _ => (loopsOf_append ..).trans (List.append_nil _)
  case onwards => exact fun s t ps tag t' _ _ hq => hq
  case hit => exact fun s ss t tag t' hp => hp
  case miss => exact fun s ss t t' tag t'' hp hq => hq.trans hp
  all_goals intros; rfl

theorem loops_tagOf (s : Symbol) (t : Trail) : loopsOf (o.tagOf s t).2.log = loopsOf t.log :=
  loops_search (search_depth_eq s t)

end Outside

/-! ### Searches through the file -/

/-- The members that the search has warned of. -/
def Search.loops (σ : Search) : List Symbol := loopsOf σ.log

/-- The settled members, latest first. -/
def Search.symbols (σ : Search) : List Symbol := σ.settled.map (·.1)

theorem Search.mem_symbols_of_settled? {σ : Search} {s : Symbol} {v : Option SourcedTag}
    (h : σ.settled? s = some v) : s ∈ σ.symbols := by
  obtain ⟨l, l', hl, -⟩ := List.lookup_eq_some_iff.1 h
  simp [symbols, hl]

namespace Resolver

variable {r : Resolver}

/-- A run warns of members only that override themselves. -/
theorem settle_loops {n : Nat} {s : Symbol} {σ τ : Search} {v : Option SourcedTag}
    (h : r.settle n s σ = some (v, τ))
    (habove : ∀ q ∈ σ.path, Relation.TransGen r.Overrides q s) :
    ∀ q ∈ τ.loops, q ∈ σ.loops ∨ Relation.TransGen r.Overrides q q := by
  refine settle_run_induct
    (P := fun s σ v τ => (∀ q ∈ σ.path, Relation.TransGen r.Overrides q s) →
      ∀ q ∈ τ.loops, q ∈ σ.loops ∨ Relation.TransGen r.Overrides q q)
    (Q := fun ps σ os τ =>
      (∀ p ∈ ps, r.roster.contains p = true → ∀ q ∈ σ.path, Relation.TransGen r.Overrides q p) →
      ∀ q ∈ τ.loops, q ∈ σ.loops ∨ Relation.TransGen r.Overrides q q)
    ?known ?foreign ?loop ?body ?nil ?own ?beyond n s σ v τ h habove
  case known => exact fun s σ v _ _ q hq => Or.inl hq
  case foreign => exact fun s σ _ _ _ q hq => Or.inl hq
  case loop =>
    intro s σ d _ _ hp habove q hq
    have hloops : (σ.note (.overrideLoop s)).loops = σ.loops ++ [s] := loopsOf_append ..
    rw [hloops, List.mem_append, List.mem_singleton] at hq
    exact hq.imp id fun hqs : q = s => hqs ▸ habove s hp
  case body =>
    intro s σ d os τ _ hd _ hq habove
    refine hq fun p hmem hin => ?_
    have hstep : r.Overrides s p := ⟨d, hd, hmem, hin⟩
    exact hstep.below habove
  case nil => exact fun σ _ q hq => Or.inl hq
  case own =>
    intro n p ps σ v τ os υ hin hrun hone hrest habove q hq
    have hpath := settle_path hrun
    rcases hrest (fun p' hp' hin' => hpath ▸ habove p' (List.mem_cons_of_mem _ hp') hin') q hq with
      hq | hq
    · exact hone (habove p List.mem_cons_self hin) q hq
    · exact Or.inr hq
  case beyond =>
    intro p ps σ os υ _ hrest habove q hq
    have hpath : (σ.follow (r.outside.tagOf p σ.trail).2).path = σ.path :=
      Outside.tagOf_snd_path p σ.trail
    have hloops : (σ.follow (r.outside.tagOf p σ.trail).2).loops = σ.loops :=
      Outside.loops_tagOf p σ.trail
    rw [← hloops]
    exact hrest (fun p' hp' hin' => hpath ▸ habove p' (List.mem_cons_of_mem _ hp') hin') q hq

/-- Whether every member of the list comes before all those of the file that it overrides. -/
def Descends (r : Resolver) : List Symbol → Prop
  | [] => True
  | s :: ss => (∀ p, r.Overrides s p → p ∈ ss) ∧ r.Descends ss

/-- No loop goes through a list that descends. -/
theorem Descends.loopless : ∀ {ss : List Symbol}, r.Descends ss →
    ∀ s ∈ ss, ¬ Relation.TransGen r.Overrides s s
  | t :: ss, ⟨ht, hss⟩, s, hs, hloop => by
    rcases List.mem_cons.1 hs with rfl | hs
    · -- A loop through the first member goes through one that it overrides.
      obtain ⟨p, hstep, hback⟩ := Relation.TransGen.head'_iff.1 hloop
      exact hss.loopless p (ht p hstep) (.tail' hback hstep)
    · exact hss.loopless s hs hloop

/-- What a run adds to the warnings and to the settled members. Where it does not warn, members are
settled after those that they override. -/
structure Grows (r : Resolver) (σ τ : Search) : Prop where
  loops : σ.loops <+: τ.loops
  symbols : σ.symbols <:+ τ.symbols
  descends : τ.loops = [] → r.Descends σ.symbols → r.Descends τ.symbols

namespace Grows

variable {σ τ υ : Search}

theorem of_eq (hl : τ.loops = σ.loops) (hs : τ.symbols = σ.symbols) : r.Grows σ τ :=
  ⟨hl ▸ List.prefix_rfl, hs ▸ List.suffix_rfl, fun _ h => hs ▸ h⟩

theorem trans (h : r.Grows σ τ) (h' : r.Grows τ υ) : r.Grows σ υ where
  loops := h.loops.trans h'.loops
  symbols := h.symbols.trans h'.symbols
  descends hυ hσ := h'.descends hυ (h.descends (List.prefix_nil.1 (hυ ▸ h'.loops)) hσ)

end Grows

theorem settle_grows {n : Nat} {s : Symbol} {σ τ : Search} {v : Option SourcedTag}
    (h : r.settle n s σ = some (v, τ)) :
    r.Grows σ τ ∧ (τ.loops = [] → r.roster.contains s = true → s ∈ τ.symbols) := by
  refine settle_induct
    (P := fun s σ v τ =>
      r.Grows σ τ ∧ (τ.loops = [] → r.roster.contains s = true → s ∈ τ.symbols))
    (Q := fun ps σ os τ =>
      r.Grows σ τ ∧ (τ.loops = [] → ∀ p ∈ ps, r.roster.contains p = true → p ∈ τ.symbols))
    ?known ?foreign ?loop ?body ?nil ?own ?beyond n s σ v τ h
  case known =>
    exact fun s σ v hs => ⟨.of_eq rfl rfl, fun _ _ => Search.mem_symbols_of_settled? hs⟩
  case foreign =>
    exact fun s σ _ hf => ⟨.of_eq rfl rfl, fun _ hin => by simp [Roster.contains, hf] at hin⟩
  case loop =>
    intro s σ d _ _ _
    have hloops : (σ.note (.overrideLoop s)).loops = σ.loops ++ [s] := loopsOf_append ..
    have hne : (σ.note (.overrideLoop s)).loops ≠ [] := by simp [hloops]
    exact ⟨⟨hloops ▸ List.prefix_append .., List.suffix_rfl, fun h => absurd h hne⟩,
      fun h => absurd h hne⟩
  case body =>
    rintro s σ d os τ _ hd _ ⟨hτ, hoverridden⟩
    obtain rfl := Roster.symbol_of_find? hd
    refine ⟨⟨hτ.loops, hτ.symbols.trans (List.suffix_cons ..), fun hloops hσ => ⟨?_, ?_⟩⟩,
      fun _ _ => List.mem_cons_self⟩
    · rintro p ⟨d', hd', hp, hin⟩
      obtain rfl : d' = d := Option.some.inj (hd'.symm.trans hd)
      exact hoverridden hloops p hp hin
    · exact hτ.descends hloops hσ
  case nil => exact fun σ => ⟨.of_eq rfl rfl, by simp⟩
  case own =>
    rintro p ps σ v τ os υ hin ⟨hτ, hp⟩ ⟨hυ, hps⟩
    refine ⟨hτ.trans hυ, fun hloops => List.forall_mem_cons.2 ⟨fun hin => ?_, hps hloops⟩⟩
    exact hυ.symbols.subset (hp (List.prefix_nil.1 (hloops ▸ hυ.loops)) hin)
  case beyond =>
    rintro p ps σ os υ hout ⟨hυ, hps⟩
    have hfollow : r.Grows σ (σ.follow (r.outside.tagOf p σ.trail).2) :=
      .of_eq (Outside.loops_tagOf p σ.trail) rfl
    exact ⟨hfollow.trans hυ, fun hloops =>
      List.forall_mem_cons.2 ⟨fun hin => by simp [hout] at hin, hps hloops⟩⟩

/-- In the end there is a warning exactly if some member overrides itself, and only of such. -/
theorem settleAll_loops (r : Resolver) :
    (r.settleAll.2.loops = [] ↔ ∀ s, ¬ Relation.TransGen r.Overrides s s) ∧
      ∀ s ∈ r.settleAll.2.loops, Relation.TransGen r.Overrides s s := by
  have hsound : ∀ s ∈ r.settleAll.2.loops, Relation.TransGen r.Overrides s s := by
    refine settleAll_induct (I := fun σ => ∀ s ∈ σ.loops, Relation.TransGen r.Overrides s s)
      (by simp [Search.loops, loopsOf]) fun s σ v τ _ hpath he _ hσ q hq => ?_
    exact (settle_loops he (by simp [hpath]) q hq).elim (hσ q) id
  have hdescends : r.settleAll.2.loops = [] → r.Descends r.settleAll.2.symbols := by
    refine settleAll_induct (I := fun σ => σ.loops = [] → r.Descends σ.symbols)
      (fun _ => trivial) fun s σ v τ _ _ he _ hσ hτ => ?_
    have hgrows := (settle_grows he).1
    exact hgrows.descends hτ (hσ (List.prefix_nil.1 (hτ ▸ hgrows.loops)))
  refine ⟨⟨fun hloops s hs => ?_, fun hloopless => ?_⟩, hsound⟩
  · -- A member on a loop is one of the file, so it was settled.
    obtain ⟨p, ⟨d, hd, -⟩, -⟩ := Relation.TransGen.head'_iff.1 hs
    obtain ⟨tag, htag⟩ := r.settleAll_verdicts.settled s (Roster.mem_symbols_iff.2 ⟨d, hd⟩)
    exact (hdescends hloops).loopless s (Search.mem_symbols_of_settled? htag) hs
  · exact List.eq_nil_iff_forall_not_mem.2 fun s hs => hloopless s (hsound s hs)

end Resolver

/-! ### The log of a file -/

theorem Roster.loops_meetAll : ∀ (ss : List Sighting) (r : Roster), loopsOf (r.meetAll ss).2 = []
  | [], _ => rfl
  | .excluded name :: ss, r => loops_meetAll ss (r.meet (.excluded name))
  | .declared d :: ss, r => by
    rw [meetAll, loopsOf_append, loops_meetAll ss, List.append_nil, meetEvents]
    split <;> rfl

namespace SourceUnit

theorem loops_declaredTags (u : SourceUnit) (policy : CallPolicy) (o : Outside) :
    loopsOf (u.declaredTags policy o).log =
      (Resolver.mk policy (u.roster o.exclusions) o).settleAll.2.loops := by
  change loopsOf (u.rosterEvents o.exclusions ++ _ ++ _) = _
  rw [loopsOf_append, loopsOf_append, rosterEvents, Roster.loops_meetAll, List.nil_append]
  exact List.append_nil _

/-- The log of a file has a warning about an override chain exactly if overrides among the members of
the file form a loop, and every such warning names a member that overrides itself, directly or
through others. -/
theorem loop_warnings_iff (u : SourceUnit) (policy : CallPolicy) (o : Outside) :
    ((∃ e ∈ (u.declaredTags policy o).log, e.IsLoopWarning) ↔
      ∃ s, Relation.TransGen (u.Overrides o.exclusions) s s) ∧
    ∀ e ∈ (u.declaredTags policy o).log, e.IsLoopWarning →
      ∃ s, e.fields = [("symbol", s.text)] ∧ Relation.TransGen (u.Overrides o.exclusions) s s := by
  obtain ⟨hnone, hsound⟩ := (Resolver.mk policy (u.roster o.exclusions) o).settleAll_loops
  rw [overrides_resolver, ← loops_declaredTags] at hnone hsound
  have hwarned : ∀ e ∈ (u.declaredTags policy o).log, e.IsLoopWarning →
      ∃ s, e.fields = [("symbol", s.text)] ∧
        Relation.TransGen (u.Overrides o.exclusions) s s := by
    intro e he hwarns
    obtain ⟨s, rfl⟩ := Event.isLoopWarning_iff.1 hwarns
    exact ⟨s, rfl, hsound s (mem_loopsOf_iff.2 he)⟩
  refine ⟨⟨fun ⟨e, he, hwarns⟩ => ?_, fun ⟨s, hs⟩ => ?_⟩, hwarned⟩
  · obtain ⟨s, -, hs⟩ := hwarned e he hwarns
    exact ⟨s, hs⟩
  · have hne : loopsOf (u.declaredTags policy o).log ≠ [] := fun h => hnone.1 h s hs
    obtain ⟨q, hq⟩ := List.exists_mem_of_ne_nil _ hne
    exact ⟨.overrideLoop q, mem_loopsOf_iff.1 hq, rfl, rfl⟩

/-- The search comes back to the task, by way of the window. The panel is not on the loop. -/
example : loopsOf (ring.declaredTags .standard ⟨{}, {}, {}⟩).log = [⟨"app.Task#run()"⟩] := by
  decide

end SourceUnit

end ThreadAffinity
