import ThreadAffinity.Declared
import ThreadAffinity.Proofs.Members
import ThreadAffinity.Proofs.OutsideSearch

/-!
The search for declared tags, freed of its depth.

`Resolver.settle_induct` is the one induction on the search: what holds of each way in which a
member can be settled holds of every run, whatever its depth. From it follow that a run comes back to
its path, that the depth always suffices (`settle_depth_isSome`), and what a run leaves behind
(`settle_ledger`): it adds one verdict for each member that it newly settles, none of them on the
path or settled before, and for each verdict the conflicts that follow from it. -/

namespace ThreadAffinity

/-- The obligation that an overridden member with this tag, if any, brings with it. -/
def Obligation.ofTag (p : Symbol) (tag : Option Tag) : List Obligation := (tag.map (⟨·, p⟩)).toList

namespace Resolver

variable {r : Resolver}

/-! ### What one step of the search can do -/

theorem obligations_cons_some {one : Symbol → Search → Option (Option Tag × Search)} {p : Symbol}
    {ps : List Symbol} {σ υ : Search} {os : List Obligation} :
    obligations one (p :: ps) σ = some (os, υ) ↔
      ∃ found τ rest, one p σ = some (found, τ) ∧ obligations one ps τ = some (rest, υ) ∧
        os = Obligation.ofTag p found ++ rest := by
  rw [obligations]
  cases one p σ with
  | none => simp
  | some f =>
    obtain ⟨found, τ⟩ := f
    cases hrest : obligations one ps τ with
    | none => simp [hrest]
    | some g =>
      obtain ⟨rest, υ'⟩ := g
      simp only [Option.some.injEq, Prod.mk.injEq, Obligation.ofTag]
      grind

theorem overriddenTag_own {settle : Symbol → Search → Option (Option SourcedTag × Search)}
    {p : Symbol} (hp : r.roster.contains p = true) (σ : Search) :
    r.overriddenTag settle p σ = (settle p σ).map fun found => (found.1.map (·.tag), found.2) := by
  rw [overriddenTag, if_pos hp]

theorem overriddenTag_beyond {settle : Symbol → Search → Option (Option SourcedTag × Search)}
    {p : Symbol} (hp : r.roster.contains p = false) (σ : Search) :
    r.overriddenTag settle p σ =
      some ((r.outside.tagOf p σ.trail).1, σ.follow (r.outside.tagOf p σ.trail).2) := by
  simp [overriddenTag, hp]

/-- The state in which a member is left whose obligations have been gathered. -/
def close (r : Resolver) (d : Declaration) (os : List Obligation) (τ : Search) : Search :=
  ((τ.report (d.conflicts r.policy os)).leave d.member.symbol).settle d.member.symbol
    (d.declaredTag os)

theorem settled?_close (d : Declaration) (os : List Obligation) (τ : Search) (s : Symbol) :
    (r.close d os τ).settled? s =
      if s = d.member.symbol then some (d.declaredTag os) else τ.settled? s := by
  change List.lookup s ((d.member.symbol, d.declaredTag os) :: τ.settled) = _
  by_cases hs : s = d.member.symbol
  · rw [if_pos hs, hs, List.lookup_cons_self]
  · rw [if_neg hs, List.lookup_cons, beq_eq_false_iff_ne.2 hs]
    rfl

/-- A member is settled already, is none of the file's, closes a loop, or is settled now. -/
theorem settle_cases {n : Nat} {s : Symbol} {σ τ : Search} {v : Option SourcedTag}
    (h : r.settle (n + 1) s σ = some (v, τ)) :
    (σ.settled? s = some v ∧ τ = σ) ∨
    (σ.settled? s = none ∧ r.roster.find? s = none ∧ v = none ∧ τ = σ) ∨
    (∃ d, σ.settled? s = none ∧ r.roster.find? s = some d ∧ s ∈ σ.path ∧ v = none ∧
      τ = σ.note (.overrideLoop s)) ∨
    (∃ d os υ, σ.settled? s = none ∧ r.roster.find? s = some d ∧ s ∉ σ.path ∧
      obligations (r.overriddenTag (r.settle n)) d.member.overrides (σ.enter s) = some (os, υ) ∧
      v = d.declaredTag os ∧ τ = r.close d os υ) := by
  rw [settle] at h
  cases hs : σ.settled? s with
  | some tag => simp_all
  | none =>
    cases hf : r.roster.find? s with
    | none => simp_all
    | some d =>
      obtain rfl := Roster.symbol_of_find? hf
      by_cases hp : d.member.symbol ∈ σ.path
      · simp_all
      · cases ho : obligations (r.overriddenTag (r.settle n)) d.member.overrides
            (σ.enter d.member.symbol) with
        | none => simp_all
        | some f =>
          obtain ⟨os, υ⟩ := f
          simp only [hs, hf, ho, List.contains_iff_mem, hp, if_false, Option.some.injEq,
            Prod.mk.injEq] at h
          exact .inr (.inr (.inr ⟨d, os, υ, rfl, rfl, hp, ho, h.1.symm, h.2.symm⟩))

/-! ### One induction for every property of the search -/

/-- What holds of every way in which a member is settled, and of every way in which the obligations
of a member are gathered, holds of every run of the search. Where a member of the file is among the
overridden ones, its own run is at hand. -/
theorem settle_run_induct {P : Symbol → Search → Option SourcedTag → Search → Prop}
    {Q : List Symbol → Search → List Obligation → Search → Prop}
    (known : ∀ s σ v, σ.settled? s = some v → P s σ v σ)
    (foreign : ∀ s σ, σ.settled? s = none → r.roster.find? s = none → P s σ none σ)
    (loop : ∀ s σ d, σ.settled? s = none → r.roster.find? s = some d → s ∈ σ.path →
      P s σ none (σ.note (.overrideLoop s)))
    (body : ∀ s σ d os τ, σ.settled? s = none → r.roster.find? s = some d → s ∉ σ.path →
      Q d.member.overrides (σ.enter s) os τ → P s σ (d.declaredTag os) (r.close d os τ))
    (nil : ∀ σ, Q [] σ [] σ)
    (own : ∀ n p ps σ v τ os υ, r.roster.contains p = true → r.settle n p σ = some (v, τ) →
      P p σ v τ → Q ps τ os υ → Q (p :: ps) σ (Obligation.ofTag p (v.map (·.tag)) ++ os) υ)
    (beyond : ∀ p ps σ os υ, r.roster.contains p = false →
      Q ps (σ.follow (r.outside.tagOf p σ.trail).2) os υ →
      Q (p :: ps) σ (Obligation.ofTag p (r.outside.tagOf p σ.trail).1 ++ os) υ) :
    ∀ n s σ v τ, r.settle n s σ = some (v, τ) → P s σ v τ := by
  intro n
  induction n with
  | zero => intro s σ v τ h; simp [settle] at h
  | succ n ih =>
    have gather : ∀ ps σ os υ,
        Resolver.obligations (r.overriddenTag (r.settle n)) ps σ = some (os, υ) → Q ps σ os υ := by
      intro ps
      induction ps with
      | nil =>
        intro σ os υ h
        obtain ⟨rfl, rfl⟩ : [] = os ∧ σ = υ := by simpa [Resolver.obligations] using h
        exact nil σ
      | cons p ps ihps =>
        intro σ os υ h
        obtain ⟨found, τ, rest, hone, hrest, rfl⟩ := obligations_cons_some.1 h
        cases hp : r.roster.contains p with
        | true =>
          rw [overriddenTag_own hp] at hone
          obtain ⟨⟨v, τ'⟩, hsettle, heq⟩ := Option.map_eq_some_iff.1 hone
          obtain ⟨rfl, rfl⟩ : v.map (·.tag) = found ∧ τ' = τ := by simpa using heq
          exact own n p ps σ v τ' rest υ hp hsettle (ih p σ v τ' hsettle) (ihps τ' rest υ hrest)
        | false =>
          rw [overriddenTag_beyond hp] at hone
          obtain ⟨rfl, rfl⟩ : (r.outside.tagOf p σ.trail).1 = found ∧
              σ.follow (r.outside.tagOf p σ.trail).2 = τ := by simpa using hone
          exact beyond p ps σ rest υ hp (ihps _ rest υ hrest)
    intro s σ v τ h
    rcases settle_cases h with ⟨hs, rfl⟩ | ⟨hs, hf, rfl, rfl⟩ | ⟨d, hs, hf, hp, rfl, rfl⟩ |
      ⟨d, os, υ, hs, hf, hp, ho, rfl, rfl⟩
    · exact known s τ v hs
    · exact foreign s τ hs hf
    · exact loop s σ d hs hf hp
    · exact body s σ d os υ hs hf hp (gather _ _ _ _ ho)

/-- What holds of every way in which a member is settled, and of every way in which the obligations
of a member are gathered, holds of every run of the search. -/
theorem settle_induct {P : Symbol → Search → Option SourcedTag → Search → Prop}
    {Q : List Symbol → Search → List Obligation → Search → Prop}
    (known : ∀ s σ v, σ.settled? s = some v → P s σ v σ)
    (foreign : ∀ s σ, σ.settled? s = none → r.roster.find? s = none → P s σ none σ)
    (loop : ∀ s σ d, σ.settled? s = none → r.roster.find? s = some d → s ∈ σ.path →
      P s σ none (σ.note (.overrideLoop s)))
    (body : ∀ s σ d os τ, σ.settled? s = none → r.roster.find? s = some d → s ∉ σ.path →
      Q d.member.overrides (σ.enter s) os τ → P s σ (d.declaredTag os) (r.close d os τ))
    (nil : ∀ σ, Q [] σ [] σ)
    (own : ∀ p ps σ v τ os υ, r.roster.contains p = true → P p σ v τ → Q ps τ os υ →
      Q (p :: ps) σ (Obligation.ofTag p (v.map (·.tag)) ++ os) υ)
    (beyond : ∀ p ps σ os υ, r.roster.contains p = false →
      Q ps (σ.follow (r.outside.tagOf p σ.trail).2) os υ →
      Q (p :: ps) σ (Obligation.ofTag p (r.outside.tagOf p σ.trail).1 ++ os) υ) :
    ∀ n s σ v τ, r.settle n s σ = some (v, τ) → P s σ v τ :=
  settle_run_induct known foreign loop body nil
    (fun _ p ps σ v τ os υ hp _ => own p ps σ v τ os υ hp) beyond

/-! ### A run comes back to its path and never lacks depth -/

theorem settle_path {n : Nat} {s : Symbol} {σ τ : Search} {v : Option SourcedTag}
    (h : r.settle n s σ = some (v, τ)) : τ.path = σ.path := by
  refine settle_induct (P := fun _ σ _ τ => τ.path = σ.path) (Q := fun _ σ _ τ => τ.path = σ.path)
    ?known ?foreign ?loop ?body ?nil ?own ?beyond n s σ v τ h
  case body =>
    intro s σ d os τ _ hf _ hq
    obtain rfl := Roster.symbol_of_find? hf
    change τ.path.erase d.member.symbol = σ.path
    rw [hq]
    exact List.erase_cons_head ..
  case own =>
    intro p ps σ v τ os υ _ hp hq
    rw [hq, hp]
  case beyond =>
    intro p ps σ os υ _ hq
    rw [hq]
    exact Outside.tagOf_snd_path p σ.trail
  all_goals intros; rfl

/-- Obligations can be gathered wherever each tag can be found. -/
theorem obligations_isSome {one : Symbol → Search → Option (Option Tag × Search)}
    {path : List Symbol} :
    ∀ {ps : List Symbol} {σ : Search},
      (∀ p ∈ ps, ∀ σ : Search, σ.path = path → ∃ v τ, one p σ = some (v, τ) ∧ τ.path = path) →
      σ.path = path → ∃ os τ, obligations one ps σ = some (os, τ)
  | [], σ, _, _ => ⟨[], σ, rfl⟩
  | p :: ps, σ, h, hσ => by
    obtain ⟨v, τ, he, hτ⟩ := h p List.mem_cons_self σ hσ
    obtain ⟨os, υ, hrest⟩ := obligations_isSome (fun q hq => h q (List.mem_cons_of_mem _ hq)) hτ
    exact ⟨_, υ, obligations_cons_some.2 ⟨v, τ, os, he, hrest, rfl⟩⟩

theorem settle_isSome : ∀ (n : Nat) (s : Symbol) (σ : Search),
    offPath r.roster.symbols σ.path < n → ∃ v τ, r.settle n s σ = some (v, τ)
  | n + 1, s, σ, hn => by
    rw [settle]
    cases hs : σ.settled? s with
    | some tag => exact ⟨tag, σ, rfl⟩
    | none =>
      cases hf : r.roster.find? s with
      | none => exact ⟨none, σ, rfl⟩
      | some d =>
        by_cases hp : s ∈ σ.path
        · exact ⟨none, σ.note (.overrideLoop s), by simp [hp]⟩
        · have hlt := offPath_cons_lt (Roster.mem_symbols_iff.2 ⟨d, hf⟩) hp
          have hone : ∀ p ∈ d.member.overrides, ∀ τ : Search, τ.path = s :: σ.path →
              ∃ v υ, r.overriddenTag (r.settle n) p τ = some (v, υ) ∧ υ.path = s :: σ.path := by
            intro p _ τ hτ
            cases hin : r.roster.contains p with
            | true =>
              obtain ⟨v, υ, he⟩ := settle_isSome n p τ (by rw [hτ]; omega)
              exact ⟨_, υ, by rw [overriddenTag_own hin, he]; rfl, (settle_path he).trans hτ⟩
            | false =>
              exact ⟨_, _, overriddenTag_beyond hin τ, (Outside.tagOf_snd_path p τ.trail).trans hτ⟩
          obtain ⟨os, τ, ho⟩ := obligations_isSome hone (show (σ.enter s).path = _ from rfl)
          exact ⟨_, _, by simp only [hp, List.contains_iff_mem, if_false, ho]; rfl⟩

theorem offPath_lt_depth (path : List Symbol) : offPath r.roster.symbols path < r.depth :=
  Nat.lt_succ_of_le ((offPath_le_length _ path).trans (by simp [Roster.symbols, Roster.size]))

/-- The depth at which members are settled always suffices. -/
theorem settle_depth_isSome (s : Symbol) (σ : Search) :
    ∃ v τ, r.settle r.depth s σ = some (v, τ) :=
  settle_isSome r.depth s σ (offPath_lt_depth σ.path)

/-- A member of the file is settled once the search for it returns, unless it was on the path. -/
theorem settle_settles {n : Nat} {s : Symbol} {d : Declaration} {σ τ : Search}
    {v : Option SourcedTag} (h : r.settle n s σ = some (v, τ)) (hd : r.roster.find? s = some d)
    (hp : s ∉ σ.path) : τ.settled? s = some v := by
  cases n with
  | zero => simp [settle] at h
  | succ n =>
    rcases settle_cases h with ⟨hs, rfl⟩ | ⟨-, hf, -, -⟩ | ⟨-, -, -, hmem, -, -⟩ |
      ⟨d', os, υ, -, hf, -, -, rfl, rfl⟩
    · exact hs
    · simp [hd] at hf
    · exact absurd hmem hp
    · obtain rfl := Roster.symbol_of_find? hf
      simp [close, Search.settle, Search.settled?]

end Resolver

/-! ### What a run leaves behind -/

/-- A member of the file, and the obligations that it was settled with. -/
structure Verdict where
  declaration : Declaration
  obligations : List Obligation

namespace Verdict

/-- The member's symbol. -/
def symbol (v : Verdict) : Symbol := v.declaration.member.symbol

/-- The tag that the member was settled with. -/
def tag (v : Verdict) : Option SourcedTag := v.declaration.declaredTag v.obligations

end Verdict

namespace Resolver

variable {r : Resolver} {ok : Verdict → Prop}

/-- A run that takes the search from `σ` to `τ` and reaches these verdicts, in this order. Each of
them is about another member of the file, neither on the path nor settled before, and satisfies
`ok`. -/
structure Ledger (r : Resolver) (ok : Verdict → Prop) (vs : List Verdict) (σ τ : Search) :
    Prop where
  path : τ.path = σ.path
  settled : τ.settled = (vs.map fun v => (v.symbol, v.tag)).reverse ++ σ.settled
  findings : τ.findings =
    σ.findings ++ vs.flatMap fun v => v.declaration.conflicts r.policy v.obligations
  sound : ∀ v ∈ vs, r.roster.find? v.symbol = some v.declaration ∧ ok v
  fresh : ∀ v ∈ vs, v.symbol ∉ σ.path ∧ σ.settled? v.symbol = none
  nodup : (vs.map Verdict.symbol).Nodup

namespace Ledger

variable {vs ws : List Verdict} {σ τ υ : Search}

theorem of_eq (hp : τ.path = σ.path) (hs : τ.settled = σ.settled) (hf : τ.findings = σ.findings) :
    r.Ledger ok [] σ τ :=
  ⟨hp, by simpa using hs, by simpa using hf, by simp, by simp, by simp⟩

/-- A search beyond the file reaches no verdicts. -/
theorem beyond (r : Resolver) (ok : Verdict → Prop) (p : Symbol) (σ : Search) :
    r.Ledger ok [] σ (σ.follow (r.outside.tagOf p σ.trail).2) :=
  .of_eq (Outside.tagOf_snd_path p σ.trail) rfl rfl

theorem settled?_eq (h : r.Ledger ok vs σ τ) (s : Symbol) :
    τ.settled? s =
      ((vs.map fun v => (v.symbol, v.tag)).reverse.lookup s).or (σ.settled? s) := by
  rw [Search.settled?, h.settled, List.lookup_append, Search.settled?]

/-- What was settled before stays as it was. -/
theorem settled?_mono (h : r.Ledger ok vs σ τ) {s : Symbol} {tag : Option SourcedTag}
    (hs : σ.settled? s = some tag) : τ.settled? s = some tag := by
  have hnew : (vs.map fun v => (v.symbol, v.tag)).reverse.lookup s = none := by
    rw [List.lookup_eq_none_iff]
    intro e he
    obtain ⟨v, hv, rfl⟩ := List.mem_map.1 (List.mem_reverse.1 he)
    have hne : s ≠ v.symbol := by
      rintro rfl
      simpa [hs] using (h.fresh v hv).2
    simpa using hne
  rw [h.settled?_eq, hnew, Option.none_or, hs]

/-- What is settled was settled before or by one of the verdicts. -/
theorem settled?_cases (h : r.Ledger ok vs σ τ) {s : Symbol} {tag : Option SourcedTag}
    (hs : τ.settled? s = some tag) :
    σ.settled? s = some tag ∨ ∃ v ∈ vs, v.symbol = s ∧ v.tag = tag := by
  rw [h.settled?_eq, Option.or_eq_some_iff] at hs
  rcases hs with hs | ⟨-, hs⟩
  · obtain ⟨l₁, l₂, he, -⟩ := List.lookup_eq_some_iff.1 hs
    have hmem : (s, tag) ∈ (vs.map fun v => (v.symbol, v.tag)).reverse := by simp [he]
    obtain ⟨v, hv, heq⟩ := List.mem_map.1 (List.mem_reverse.1 hmem)
    exact Or.inr ⟨v, hv, by simpa using heq⟩
  · exact Or.inl hs

/-- A verdict is what its member stays settled with. -/
theorem settled?_of_mem (h : r.Ledger ok vs σ τ) {v : Verdict} (hv : v ∈ vs) :
    τ.settled? v.symbol = some v.tag := by
  have hmem : (v.symbol, v.tag) ∈ (vs.map fun v => (v.symbol, v.tag)).reverse := by
    simpa using ⟨v, hv, rfl, rfl⟩
  obtain ⟨tag, htag⟩ : ∃ tag, τ.settled? v.symbol = some tag := by
    rw [← Option.isSome_iff_exists, h.settled?_eq, Option.isSome_or]
    simp only [Bool.or_eq_true, List.lookup_isSome_iff]
    exact Or.inl ⟨_, hmem, by simp⟩
  rcases h.settled?_cases htag with hs | ⟨w, hw, hsym, rfl⟩
  · simp [(h.fresh v hv).2] at hs
  · rwa [List.inj_on_of_nodup_map h.nodup hw hv hsym] at htag

theorem trans (h : r.Ledger ok vs σ τ) (h' : r.Ledger ok ws τ υ) :
    r.Ledger ok (vs ++ ws) σ υ where
  path := h'.path.trans h.path
  settled := by simp [h'.settled, h.settled]
  findings := by simp [h'.findings, h.findings]
  sound v hv := (List.mem_append.1 hv).elim (h.sound v) (h'.sound v)
  fresh v hv := by
    rcases List.mem_append.1 hv with hv | hv
    · exact h.fresh v hv
    · refine ⟨h.path ▸ (h'.fresh v hv).1, ?_⟩
      by_contra hne
      obtain ⟨tag, htag⟩ := Option.ne_none_iff_exists'.1 hne
      simpa [h.settled?_mono htag] using (h'.fresh v hv).2
  nodup := by
    rw [List.map_append]
    refine h.nodup.append h'.nodup fun s hs hs' => ?_
    obtain ⟨v, hv, rfl⟩ := List.mem_map.1 hs
    obtain ⟨w, hw, heq⟩ := List.mem_map.1 hs'
    simpa [heq, h.settled?_of_mem hv] using (h'.fresh w hw).2

/-- The verdict on a member follows those that its obligations took. -/
theorem close {s : Symbol} {d : Declaration} {os : List Obligation}
    (h : r.Ledger ok vs (σ.enter s) τ) (hs : σ.settled? s = none)
    (hd : r.roster.find? s = some d) (hp : s ∉ σ.path) (hok : ok ⟨d, os⟩) :
    r.Ledger ok (vs ++ [⟨d, os⟩]) σ (r.close d os τ) := by
  obtain rfl := Roster.symbol_of_find? hd
  have hinner : r.Ledger ok vs σ (τ.leave d.member.symbol) := by
    refine ⟨?_, h.settled, h.findings, h.sound, fun v hv => ?_, h.nodup⟩
    · change τ.path.erase d.member.symbol = σ.path
      rw [h.path]
      exact List.erase_cons_head ..
    · obtain ⟨hpath, hun⟩ := h.fresh v hv
      exact ⟨fun hmem => hpath (List.mem_cons_of_mem _ hmem), hun⟩
  have hself : d.member.symbol ∉ vs.map Verdict.symbol := by
    intro hmem
    obtain ⟨v, hv, heq⟩ := List.mem_map.1 hmem
    exact (h.fresh v hv).1 (heq ▸ List.mem_cons_self)
  have hlast : r.Ledger ok [⟨d, os⟩] (τ.leave d.member.symbol) (r.close d os τ) := by
    refine ⟨rfl, rfl, by simp [Resolver.close, Search.report, Search.leave, Search.settle], ?_, ?_,
      by simp⟩
    · simpa using ⟨hd, hok⟩
    · simp only [List.mem_singleton, forall_eq, hinner.path]
      refine ⟨hp, ?_⟩
      by_contra hne
      obtain ⟨tag, htag⟩ := Option.ne_none_iff_exists'.1 hne
      rcases hinner.settled?_cases htag with hs' | ⟨v, hv, heq, -⟩
      · simp [Verdict.symbol, hs] at hs'
      · exact hself (List.mem_map.2 ⟨v, hv, heq⟩)
  exact hinner.trans hlast

end Ledger

/-- Every run keeps a ledger. -/
theorem settle_ledger {n : Nat} {s : Symbol} {σ τ : Search} {v : Option SourcedTag}
    (h : r.settle n s σ = some (v, τ)) : ∃ vs, r.Ledger (fun _ => True) vs σ τ := by
  refine settle_induct (P := fun _ σ _ τ => ∃ vs, r.Ledger (fun _ => True) vs σ τ)
    (Q := fun _ σ _ τ => ∃ vs, r.Ledger (fun _ => True) vs σ τ)
    ?known ?foreign ?loop ?body ?nil ?own ?beyond n s σ v τ h
  case body =>
    rintro s σ d os τ hs hd hp ⟨vs, hvs⟩
    exact ⟨_, hvs.close hs hd hp trivial⟩
  case own =>
    rintro p ps σ v τ os υ - ⟨vs, hvs⟩ ⟨ws, hws⟩
    exact ⟨_, hvs.trans hws⟩
  case beyond =>
    rintro p ps σ os υ - ⟨vs, hvs⟩
    exact ⟨_, (Ledger.beyond r _ p σ).trans hvs⟩
  all_goals intros; exact ⟨[], .of_eq rfl rfl rfl⟩

/-! ### All members, one after another -/

/-- The state after the members of `done` have had their turn: their tags are recorded, and no
others. -/
structure Progress (r : Resolver) (ok : Verdict → Prop) (done : List Symbol)
    (state : TagMap × Search) : Prop where
  ledger : ∃ vs, r.Ledger ok vs {} state.2
  settled : ∀ s ∈ done, ∃ tag, state.2.settled? s = some tag
  tags : ∀ s, state.1.get? s = if s ∈ done then (state.2.settled? s).join else none

theorem Progress.path {done : List Symbol} {state : TagMap × Search}
    (h : r.Progress ok done state) : state.2.path = [] :=
  h.ledger.elim fun _ hvs => hvs.path

theorem settleNext_eq {state : TagMap × Search} {s : Symbol} {v : Option SourcedTag} {τ : Search}
    (hpath : state.2.path = []) (h : r.settle r.depth s state.2 = some (v, τ)) :
    r.settleNext state s = ((v.elim state.1 (state.1.putNew s)), τ) := by
  obtain ⟨tags, σ⟩ := state
  have hσ : { σ with path := [] } = σ := by cases σ; simp_all
  unfold settleNext
  rw [hσ, h]
  cases v <;> rfl

theorem Progress.next {done : List Symbol} {state : TagMap × Search} {s : Symbol}
    (h : r.Progress ok done state) (hs : s ∈ r.roster.symbols)
    (hrun : ∀ v τ, r.settle r.depth s state.2 = some (v, τ) → ∃ vs, r.Ledger ok vs state.2 τ) :
    r.Progress ok (done ++ [s]) (r.settleNext state s) := by
  obtain ⟨v, τ, he⟩ := settle_depth_isSome (r := r) s state.2
  obtain ⟨vs, hvs⟩ := hrun v τ he
  obtain ⟨ws, hws⟩ := h.ledger
  obtain ⟨d, hd⟩ := Roster.mem_symbols_iff.1 hs
  have hsv : τ.settled? s = some v := settle_settles he hd (by simp [h.path])
  rw [settleNext_eq h.path he]
  refine ⟨⟨_, hws.trans hvs⟩, fun t ht => ?_, fun t => ?_⟩
  · rcases List.mem_append.1 ht with ht | ht
    · obtain ⟨tag, htag⟩ := h.settled t ht
      exact ⟨tag, hvs.settled?_mono htag⟩
    · exact ⟨v, List.mem_singleton.1 ht ▸ hsv⟩
  · have hold : ∀ t ∈ done, τ.settled? t = state.2.settled? t := fun t ht => by
      obtain ⟨tag, htag⟩ := h.settled t ht
      rw [htag, hvs.settled?_mono htag]
    have htags := h.tags t
    by_cases hts : t = s
    · subst hts
      by_cases hdone : t ∈ done
      · have hv : state.1.get? t = v := by
          rw [htags, if_pos hdone, ← hold t hdone, hsv, Option.join_some]
        cases v <;> simp [SymbolMap.get?_putNew, hv, hsv]
      · rw [if_neg hdone] at htags
        cases v <;> simp [SymbolMap.get?_putNew, htags, hsv]
    · have hsame : (v.elim state.1 (state.1.putNew s)).get? t = state.1.get? t := by
        cases v <;> simp [SymbolMap.get?_putNew, hts]
      simp only [hsame, htags, List.mem_append, List.mem_singleton, hts, or_false]
      split
      case isTrue hdone => rw [hold t hdone]
      case isFalse => rfl

/-- When every run from a state that verdicts led to is itself a matter of verdicts, so is the whole
resolution, and its tags are what the members are settled with. -/
theorem settleAll_progress
    (hrun : ∀ s σ v τ, (∃ ws, r.Ledger ok ws {} σ) → r.settle r.depth s σ = some (v, τ) →
      ∃ vs, r.Ledger ok vs σ τ) :
    r.Progress ok r.roster.symbols r.settleAll := by
  have hall : ∀ ss : List Symbol, (∀ s ∈ ss, s ∈ r.roster.symbols) →
      r.Progress ok ss (ss.foldl r.settleNext (.empty, {})) := by
    intro ss
    induction ss using List.reverseRecOn with
    | nil => exact fun _ => ⟨⟨[], .of_eq rfl rfl rfl⟩, by simp, fun s => by simp⟩
    | append_singleton ss s ih =>
      intro hmem
      have h := ih fun t ht => hmem t (List.mem_append_left _ ht)
      rw [List.foldl_append]
      exact h.next (hmem s (by simp)) fun v τ he => hrun s _ v τ h.ledger he
  exact hall r.roster.symbols fun _ h => h

/-- Every resolution is a matter of verdicts. -/
theorem settleAll_verdicts (r : Resolver) :
    r.Progress (fun _ => True) r.roster.symbols r.settleAll :=
  settleAll_progress fun _ _ _ _ _ h => settle_ledger h

/-- Once all members are settled, the verdicts are one for each of them. -/
theorem perm_declarations {vs : List Verdict} {state : TagMap × Search}
    (hn : r.roster.symbols.Nodup) (hvs : r.Ledger ok vs {} state.2)
    (hsettled : ∀ s ∈ r.roster.symbols, ∃ tag, state.2.settled? s = some tag) :
    (vs.map Verdict.declaration).Perm r.roster.declarations := by
  have hv : (vs.map Verdict.declaration).Nodup :=
    List.Nodup.of_map (fun d : Declaration => d.member.symbol)
      (by rw [List.map_map]; exact hvs.nodup)
  refine (List.perm_ext_iff_of_nodup hv (List.Nodup.of_map _ hn)).2 fun d =>
    ⟨fun hd => ?_, fun hd => ?_⟩
  · obtain ⟨v, hv, rfl⟩ := List.mem_map.1 hd
    exact Roster.mem_of_find? (hvs.sound v hv).1
  · obtain ⟨tag, htag⟩ := hsettled d.member.symbol (List.mem_map_of_mem hd)
    rcases hvs.settled?_cases htag with hs | ⟨v, hv, heq, -⟩
    · simp [Search.settled?] at hs
    · have hfind := (hvs.sound v hv).1
      rw [heq, Roster.find?_of_mem hn hd] at hfind
      exact List.mem_map.2 ⟨v, hv, (Option.some.inj hfind).symm⟩

end Resolver

end ThreadAffinity
