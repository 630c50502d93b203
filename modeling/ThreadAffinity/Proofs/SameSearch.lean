import ThreadAffinity.Proofs.FileSearch

/-!
What a search depends on.

A search beyond the file comes to some symbols only (`Outside.Reached`), and of what lies outside it
sees nothing but how those look. So where two surroundings have the same host and look the same at
the symbols that the searches of a file come to, the file has the same declared tags in both, with
the same findings and the same log (`SourceUnit.declaredTags_congr`). The published tags of symbols
that no host declaration overrides are not seen by a search from elsewhere (`Outside.SameBut`). -/

namespace ThreadAffinity

namespace Outside

variable {o o' : Outside}

/-- The symbols that searches for the given ones come to. -/
inductive Reached (o : Outside) (ps : List Symbol) : Symbol → Prop
  | start {s : Symbol} : s ∈ ps → Reached o ps s
  | step {s q : Symbol} {qs : List Symbol} :
    Reached o ps s → o.look s = .onwards qs → q ∈ qs → Reached o ps q

theorem Reached.trans {ps qs : List Symbol} {s : Symbol} (h : o.Reached qs s)
    (hqs : ∀ q ∈ qs, o.Reached ps q) : o.Reached ps s := by
  induction h with
  | start hs => exact hqs _ hs
  | step _ hl hq ih => exact ih.step hl hq

/-- A search that starts among some symbols and leads nowhere else comes to these only. -/
theorem Reached.mem_of_closed {ps l : List Symbol} {s : Symbol} (h : o.Reached ps s) (hps : ps ⊆ l)
    (hl : ∀ q ∈ l, ∀ qs, o.look q = .onwards qs → qs ⊆ l) : s ∈ l := by
  induction h with
  | start hs => exact hps hs
  | step _ hlook hq ih => exact hl _ ih _ hlook hq

/-- A search does not come to symbols that no host declaration overrides, unless it starts there. -/
theorem Reached.notMem_of_apart {ps l : List Symbol} {s : Symbol} (h : o.Reached ps s)
    (hps : ∀ p ∈ ps, p ∉ l) (hl : ∀ q e, o.host.get? q = some e → ∀ p ∈ e.overrides, p ∉ l) :
    s ∉ l := by
  cases h with
  | start hs => exact hps s hs
  | step _ hlook hq => exact hl _ _ (host_of_look hlook) s hq

theorem firstTag_congr {search search' : Symbol → Trail → Option (Option Tag × Trail)} :
    ∀ {ps : List Symbol}, (∀ p ∈ ps, ∀ t, search' p t = search p t) →
      ∀ t, firstTag search' ps t = firstTag search ps t
  | [], _, _ => rfl
  | p :: ps, h, t => by
    rw [firstTag, firstTag, h p List.mem_cons_self]
    cases search p t with
    | none => rfl
    | some found =>
      obtain ⟨_ | tag, t'⟩ := found
      · exact firstTag_congr (fun q hq => h q (List.mem_cons_of_mem _ hq)) t'
      · rfl

/-- A search that comes only to symbols that look the same takes the same course. -/
theorem search_congr : ∀ (n : Nat) (s : Symbol) (t : Trail),
    (∀ q, o.Reached [s] q → o'.look q = o.look q) → o'.search n s t = o.search n s t
  | 0, _, _, _ => rfl
  | n + 1, s, t, h => by
    rw [search_succ, search_succ, h s (.start List.mem_cons_self)]
    cases hl : o.look s with
    | found tag => rfl
    | onwards ps =>
      have hinner : ∀ p ∈ ps, ∀ τ, o'.search n p τ = o.search n p τ := by
        intro p hp τ
        refine search_congr n p τ fun q hq => h q (hq.trans fun p' hp' => ?_)
        obtain rfl := List.mem_singleton.1 hp'
        exact (Reached.start List.mem_cons_self).step hl hp
      dsimp only
      rw [firstTag_congr hinner]

theorem tagOf_congr (hhost : o'.host = o.host) {ps : List Symbol}
    (h : ∀ q, o.Reached ps q → o'.look q = o.look q) {p : Symbol} (hp : p ∈ ps) (t : Trail) :
    o'.tagOf p t = o.tagOf p t := by
  have hone : ∀ q, o.Reached [p] q → o'.look q = o.look q := fun q hq =>
    h q (hq.trans fun p' hp' => .start (List.mem_singleton.1 hp' ▸ hp))
  rw [tagOf, tagOf, depth, depth, hhost, search_congr _ p t hone]

theorem tagFrom_congr (hhost : o'.host = o.host) {p : Symbol}
    (h : ∀ q, o.Reached [p] q → o'.look q = o.look q) (path : List Symbol) :
    o'.tagFrom path p = o.tagFrom path p := by
  have hsame := congrArg Prod.fst (tagOf_congr hhost h List.mem_cons_self ⟨path, []⟩)
  rwa [tagOf_fst, tagOf_fst] at hsame

/-- Two surroundings that differ in nothing but the published tags of some symbols, none of which a
host declaration overrides. -/
structure SameBut (l : List Symbol) (o o' : Outside) : Prop where
  exclusions : o'.exclusions = o.exclusions
  host : o'.host = o.host
  store : ∀ s, s ∉ l → o'.store.get? s = o.store.get? s
  apart : ∀ s e, o.host.get? s = some e → ∀ p ∈ e.overrides, p ∉ l

namespace SameBut

variable {l : List Symbol}

theorem refl (o : Outside) : SameBut [] o o := ⟨rfl, rfl, fun _ _ => rfl, by simp⟩

theorem look (h : SameBut l o o') {s : Symbol} (hs : s ∉ l) : o'.look s = o.look s := by
  have hpublished : o'.publishedTag? s = o.publishedTag? s := by
    rw [publishedTag?, publishedTag?, h.store s hs]
  rw [Outside.look, Outside.look, hpublished, h.exclusions, h.host]

theorem tagFrom (h : SameBut l o o') {s : Symbol} (hs : s ∉ l) (path : List Symbol) :
    o'.tagFrom path s = o.tagFrom path s := by
  refine tagFrom_congr h.host (fun q hq => h.look (hq.notMem_of_apart ?_ h.apart)) path
  exact fun p hp => List.mem_singleton.1 hp ▸ hs

end SameBut

end Outside

namespace Resolver

variable {r r' : Resolver}

theorem obligations_congr {one one' : Symbol → Search → Option (Option Tag × Search)} :
    ∀ {ps : List Symbol}, (∀ p ∈ ps, ∀ σ, one' p σ = one p σ) →
      ∀ σ, obligations one' ps σ = obligations one ps σ
  | [], _, _ => rfl
  | p :: ps, h, σ => by
    rw [obligations, obligations, h p List.mem_cons_self]
    cases one p σ with
    | none => rfl
    | some found =>
      dsimp only
      rw [obligations_congr fun q hq => h q (List.mem_cons_of_mem _ hq)]

/-- Two searches through one file take the same course when their searches beyond the file do. -/
theorem settle_congr (hpolicy : r'.policy = r.policy) (hroster : r'.roster = r.roster)
    (hbeyond : ∀ d ∈ r.roster.declarations, ∀ p ∈ d.member.overrides,
      r.roster.contains p = false → ∀ t, r'.outside.tagOf p t = r.outside.tagOf p t) :
    ∀ (n : Nat) (s : Symbol) (σ : Search), r'.settle n s σ = r.settle n s σ
  | 0, _, _ => rfl
  | n + 1, s, σ => by
    have hsame := settle_congr hpolicy hroster hbeyond n
    rw [settle, settle, hroster]
    cases σ.settled? s with
    | some tag => rfl
    | none =>
      cases hd : r.roster.find? s with
      | none => rfl
      | some d =>
        dsimp only
        have hone : ∀ p ∈ d.member.overrides, ∀ τ,
            r'.overriddenTag (r'.settle n) p τ = r.overriddenTag (r.settle n) p τ := by
          intro p hp τ
          rw [overriddenTag, overriddenTag, hroster, hsame p τ]
          cases hin : r.roster.contains p with
          | true => rfl
          | false => rw [hbeyond d (Roster.mem_of_find? hd) p hp hin]
        rw [obligations_congr hone, hpolicy]

theorem settleAll_congr (hpolicy : r'.policy = r.policy) (hroster : r'.roster = r.roster)
    (hbeyond : ∀ d ∈ r.roster.declarations, ∀ p ∈ d.member.overrides,
      r.roster.contains p = false → ∀ t, r'.outside.tagOf p t = r.outside.tagOf p t) :
    r'.settleAll = r.settleAll := by
  have hnext : r'.settleNext = r.settleNext := by
    funext state s
    rw [settleNext, settleNext, depth, depth, hroster, settle_congr hpolicy hroster hbeyond]
  rw [settleAll, settleAll, hroster, hnext]

end Resolver

/-- The symbols beyond a file that its members override: here its searches start. -/
def SourceUnit.overriddenBeyond (u : SourceUnit) (x : Exclusions) : List Symbol :=
  (u.roster x).declarations.flatMap fun d =>
    d.member.overrides.filter fun p => !(u.roster x).contains p

/-- Where the surroundings look the same to the searches of a file, it has the same declared tags. -/
theorem SourceUnit.declaredTags_congr (u : SourceUnit) (policy : CallPolicy) {o o' : Outside}
    (hx : o'.exclusions = o.exclusions) (hhost : o'.host = o.host)
    (h : ∀ s, o.Reached (u.overriddenBeyond o.exclusions) s → o'.look s = o.look s) :
    u.declaredTags policy o' = u.declaredTags policy o := by
  have hall : Resolver.settleAll ⟨policy, u.roster o'.exclusions, o'⟩ =
      Resolver.settleAll ⟨policy, u.roster o.exclusions, o⟩ := by
    refine Resolver.settleAll_congr rfl (congrArg (u.roster ·) hx) fun d hd p hp hout t => ?_
    refine Outside.tagOf_congr hhost h (List.mem_flatMap.2 ⟨d, hd, ?_⟩) t
    exact List.mem_filter.2 ⟨hp, by simpa using hout⟩
  unfold declaredTags
  dsimp only
  rw [hall, hx]

end ThreadAffinity
