import Mathlib.Data.List.Induction
import Mathlib.Tactic.Push
import Mathlib.Tactic.Tauto
import ThreadAffinity.Settings.Basic

/-!
Bridges that are laid one after another.

A policy keeps a bridge in two places: in its table of legal calls and in its list of bridges. Among
the bridges that somebody lays there may be refused ones, ones that permit nothing new and ones that
have been laid before. Whatever comes, table and list agree (`Carries`): the list has every new
bridge once, in the order in which they first came, and the table permits what the strict policy
permits and what a single bridge of the list permits, so that two bridges in a row lead nowhere. -/

namespace ThreadAffinity

namespace CallPolicy

variable {p : CallPolicy} {bs : List (Tag × Tag)} {b : Tag × Tag}

/-- Whether a bridge leads from universal code to a thread. -/
def Unfounded (b : Tag × Tag) : Prop := b.1 = .any ∧ b.2 ≠ .any

instance : DecidablePred Unfounded := fun b =>
  inferInstanceAs (Decidable (b.1 = .any ∧ b.2 ≠ .any))

/-- Whether a bridge may be laid and permits a call that the strict policy does not permit. -/
def isNew (b : Tag × Tag) : Bool := !decide (Unfounded b) && !strict.permits b.1 b.2

/-- The policy after an attempt to lay a bridge. A refused bridge leaves it as it is. -/
def attempt (p : CallPolicy) (b : Tag × Tag) : CallPolicy := (p.lay b.1 b.2).toOption.getD p

/-- The strict policy after attempts to lay bridges, one after another. -/
def attemptAll (bs : List (Tag × Tag)) : CallPolicy := bs.foldl attempt strict

theorem strict_permits {caller callee : Tag} :
    strict.permits caller callee = true ↔ callee = .any ∨ caller = callee := by
  simp [strict, Tag.isUniversal_iff]

/-- A new bridge leads from a thread to another one. -/
theorem isNew_iff : isNew b = true ↔ b.1 ≠ .any ∧ b.2 ≠ .any ∧ b.1 ≠ b.2 := by
  have hmay : (!decide (Unfounded b)) = true ↔ ¬ Unfounded b := by simp
  have hmore : (!strict.permits b.1 b.2) = true ↔ ¬ (b.2 = .any ∨ b.1 = b.2) := by
    rw [← strict_permits]
    simp
  rw [isNew, Bool.and_eq_true, hmay, hmore, Unfounded]
  tauto

/-! ### One bridge -/

/-- A bridge is refused, permits nothing new, or goes to the end of the list. -/
theorem lay_cases (p : CallPolicy) (b : Tag × Tag) :
    (Unfounded b ∧ p.lay b.1 b.2 = .error (.refusedBridge b.1 b.2)) ∨
    (¬ Unfounded b ∧ p.permits b.1 b.2 = true ∧ p.lay b.1 b.2 = .ok p) ∨
    (¬ Unfounded b ∧ p.permits b.1 b.2 = false ∧ p.lay b.1 b.2 =
      .ok ⟨fun x y => p.permits x y || (x == b.1 && y == b.2), p.bridges ++ [b]⟩) := by
  have hguard : (b.1.isUniversal && !b.2.isUniversal) = decide (Unfounded b) := by
    rw [Bool.eq_iff_iff, decide_eq_true_iff]
    simp [Unfounded, Tag.isUniversal]
  unfold lay
  rw [hguard]
  by_cases hb : Unfounded b
  · exact .inl ⟨hb, by rw [if_pos (by simpa using hb)]⟩
  · rw [if_neg (by simpa using hb)]
    cases hp : p.permits b.1 b.2 with
    | true => exact .inr (.inl ⟨hb, rfl, rfl⟩)
    | false => exact .inr (.inr ⟨hb, rfl, rfl⟩)

theorem lay_eq_error_iff (p : CallPolicy) (b : Tag × Tag) :
    (∃ e, p.lay b.1 b.2 = .error e) ↔ Unfounded b := by
  rcases p.lay_cases b with ⟨hb, h⟩ | ⟨hb, -, h⟩ | ⟨hb, -, h⟩
  · exact iff_of_true ⟨_, h⟩ hb
  · exact iff_of_false (by simp [h]) hb
  · exact iff_of_false (by simp [h]) hb

theorem attempt_of_unfounded (p : CallPolicy) (hb : Unfounded b) : p.attempt b = p := by
  obtain ⟨e, he⟩ := (p.lay_eq_error_iff b).2 hb
  rw [attempt, he]
  rfl

/-! ### Many bridges -/

/-- The last element counts only if it has not come before. -/
theorem eraseDups_concat {α : Type} [BEq α] [LawfulBEq α] (l : List α) (a : α) :
    (l ++ [a]).eraseDups = if l.contains a then l.eraseDups else l.eraseDups ++ [a] := by
  rw [List.eraseDups_append, List.cons_removeAll]
  cases l.contains a <;> simp [List.removeAll, List.eraseDups_cons]

/-- The policy keeps the bridges laid so far in step: its list has the new ones of them, each once
and in order, and its table permits these and what the strict policy permits. -/
structure Carries (p : CallPolicy) (bs : List (Tag × Tag)) : Prop where
  permits (caller callee : Tag) : p.permits caller callee = true ↔
    callee = .any ∨ caller = callee ∨ (caller, callee) ∈ p.bridges
  bridges : p.bridges = (bs.filter isNew).eraseDups
  nodup : p.bridges.Nodup

theorem carries_strict : strict.Carries [] where
  permits caller callee := by rw [strict_permits]; simp [strict]
  bridges := rfl
  nodup := .nil

namespace Carries

theorem mem_bridges (h : p.Carries bs) : b ∈ p.bridges ↔ b ∈ bs ∧ isNew b = true := by
  rw [h.bridges, List.mem_eraseDups, List.mem_filter]

/-- A bridge that is not new adds nothing. -/
theorem skip (h : p.Carries bs) (hb : isNew b = false) : p.Carries (bs ++ [b]) where
  permits := h.permits
  bridges := by rw [h.bridges, List.filter_append, List.filter_cons_of_neg (by simp [hb]),
    List.filter_nil, List.append_nil]
  nodup := h.nodup

/-- One more bridge. -/
theorem attempt (h : p.Carries bs) (b : Tag × Tag) : (p.attempt b).Carries (bs ++ [b]) := by
  rcases p.lay_cases b with ⟨hb, -⟩ | ⟨hb, hp, hlay⟩ | ⟨hb, hp, hlay⟩
  · rw [p.attempt_of_unfounded hb]
    exact h.skip (by simp [isNew, hb])
  · have hsame : p.attempt b = p := by rw [CallPolicy.attempt, hlay]; rfl
    rw [hsame]
    cases hnew : isNew b with
    | false => exact h.skip hnew
    | true =>
      -- A new bridge that is permitted has been laid before.
      obtain ⟨-, hany, hne⟩ := isNew_iff.1 hnew
      have hold : b ∈ bs := by
        rcases (h.permits b.1 b.2).1 hp with e | e | hmem
        · exact absurd e hany
        · exact absurd e hne
        · exact (h.mem_bridges.1 hmem).1
      refine ⟨h.permits, ?_, h.nodup⟩
      rw [List.filter_append, List.filter_cons_of_pos hnew, List.filter_nil, eraseDups_concat,
        if_pos (List.contains_iff_mem.2 (List.mem_filter.2 ⟨hold, hnew⟩)), h.bridges]
  · have hmore : p.attempt b =
        ⟨fun x y => p.permits x y || (x == b.1 && y == b.2), p.bridges ++ [b]⟩ := by
      rw [CallPolicy.attempt, hlay]
      rfl
    have hnot : ¬ (b.2 = .any ∨ b.1 = b.2 ∨ b ∈ p.bridges) := fun e =>
      Bool.false_ne_true (hp.symm.trans ((h.permits b.1 b.2).2 e))
    push Not at hnot
    obtain ⟨hany, hne, hfresh⟩ := hnot
    have hnew : isNew b = true := isNew_iff.2 ⟨fun e => hb ⟨e, hany⟩, hany, hne⟩
    rw [hmore]
    refine ⟨fun caller callee => ?_, ?_, ?_⟩
    · simp only [Bool.or_eq_true, Bool.and_eq_true, beq_iff_eq, h.permits, List.mem_append,
        List.mem_singleton, ← Prod.mk.injEq, or_assoc]
    · show p.bridges ++ [b] = _
      rw [List.filter_append, List.filter_cons_of_pos hnew, List.filter_nil, eraseDups_concat,
        if_neg fun hmem =>
          hfresh (h.mem_bridges.2 (List.mem_filter.1 (List.contains_iff_mem.1 hmem))),
        h.bridges]
    · exact List.nodup_append.2 ⟨h.nodup, List.pairwise_singleton _ b, by
        rintro _ hmem _ hb rfl
        exact hfresh (List.mem_singleton.1 hb ▸ hmem)⟩

end Carries

/-- Whatever bridges have been laid, table and list are in step. -/
theorem carries_attemptAll (bs : List (Tag × Tag)) : (attemptAll bs).Carries bs := by
  induction bs using List.reverseRecOn with
  | nil => exact carries_strict
  | append_singleton bs b ih =>
    rw [attemptAll, List.foldl_append]
    exact ih.attempt b

/-- A list of bridges is refused for its first bridge that is. -/
theorem foldlM_lay (p : CallPolicy) (bs : List (Tag × Tag)) :
    bs.foldlM (fun p b => p.lay b.1 b.2) p =
      match bs.find? (decide <| Unfounded ·) with
      | some b => .error (.refusedBridge b.1 b.2)
      | none => .ok (bs.foldl attempt p) := by
  induction bs generalizing p with
  | nil => rfl
  | cons b bs ih =>
    rw [List.foldlM_cons, List.foldl_cons]
    have hlater {q : CallPolicy} (hb : ¬ Unfounded b) (hq : p.lay b.1 b.2 = .ok q) :
        (p.lay b.1 b.2 >>= fun q => bs.foldlM (fun p b => p.lay b.1 b.2) q) =
          match (b :: bs).find? (decide <| Unfounded ·) with
          | some b => .error (.refusedBridge b.1 b.2)
          | none => .ok (bs.foldl attempt (p.attempt b)) := by
      rw [List.find?_cons_of_neg (by simpa using hb), attempt, hq]
      exact ih q
    rcases p.lay_cases b with ⟨hb, h⟩ | ⟨hb, -, h⟩ | ⟨hb, -, h⟩
    · rw [List.find?_cons_of_pos (by simpa using hb), h]
      rfl
    · exact hlater hb h
    · exact hlater hb h

theorem ofBridges_eq_error_iff (bs : List (Tag × Tag)) :
    (∃ e, ofBridges bs = .error e) ↔ ∃ b ∈ bs, Unfounded b := by
  rw [ofBridges, foldlM_lay]
  cases h : bs.find? (decide <| Unfounded ·) with
  | some b =>
    exact iff_of_true ⟨_, rfl⟩ ⟨b, List.mem_of_find?_eq_some h, by simpa using List.find?_some h⟩
  | none => exact iff_of_false (by simp) (by simpa using h)

theorem eq_attemptAll_of_ofBridges (h : ofBridges bs = .ok p) : p = attemptAll bs := by
  rw [ofBridges, foldlM_lay] at h
  split at h
  · cases h
  · exact (Except.ok.inj h).symm

/-- After any attempts to lay bridges on the strict policy the table of legal calls and the list of
bridges are in step. A call is legal exactly if its target is universal, it stays on its thread or
the list has a bridge for it. The list has no bridge twice and none that the strict policy makes
superfluous, and it is in the order in which the new bridges first came. Universal code may call
universal code only. A bridge is refused exactly if it leads from there to a thread, and then
nothing changes; a list of bridges is refused exactly if one of them is, and otherwise it is what
the attempts make. Which calls are legal depends only on which bridges there are, not on their
order or number. -/
theorem bridges_in_step (bs : List (Tag × Tag)) :
    let p := attemptAll bs
    (∀ caller callee, p.permits caller callee = true ↔
      callee = .any ∨ caller = callee ∨ (caller, callee) ∈ p.bridges) ∧
    p.bridges.Nodup ∧
    (∀ b ∈ p.bridges, strict.permits b.1 b.2 = false) ∧
    p.bridges = (bs.filter isNew).eraseDups ∧
    (∀ t, p.permits .any t = true ↔ t = .any) ∧
    (∀ b, ((∃ e, p.lay b.1 b.2 = .error e) ↔ b.1 = .any ∧ b.2 ≠ .any) ∧
      (b.1 = .any ∧ b.2 ≠ .any → p.attempt b = p)) ∧
    ((∃ e, ofBridges bs = .error e) ↔ ∃ b ∈ bs, b.1 = .any ∧ b.2 ≠ .any) ∧
    (∀ q, ofBridges bs = .ok q → q = p) ∧
    (∀ s : Settings, s.bridges = bs → s.policy = ofBridges bs) ∧
    ∀ bs', (∀ b, b ∈ bs' ↔ b ∈ bs) → (attemptAll bs').permits = p.permits := by
  intro p
  have hp : p.Carries bs := carries_attemptAll bs
  have hnew : ∀ b ∈ p.bridges, b.1 ≠ .any ∧ b.2 ≠ .any ∧ b.1 ≠ b.2 := fun b hb =>
    isNew_iff.1 (hp.mem_bridges.1 hb).2
  refine ⟨hp.permits, hp.nodup, fun b hb => ?_, hp.bridges, fun t => ?_,
    fun b => ⟨p.lay_eq_error_iff b, p.attempt_of_unfounded⟩, ofBridges_eq_error_iff bs,
    fun q => eq_attemptAll_of_ofBridges, ?_, fun bs' hbs => ?_⟩
  · obtain ⟨-, hany, hne⟩ := hnew b hb
    rw [Bool.eq_false_iff, ne_eq, strict_permits]
    exact not_or_intro hany hne
  · rw [hp.permits]
    refine ⟨?_, .inl⟩
    rintro (h | h | h)
    · exact h
    · exact h.symm
    · exact absurd rfl (hnew _ h).1
  · rintro s rfl
    rfl
  · have hp' := carries_attemptAll bs'
    funext caller callee
    rw [Bool.eq_iff_iff, hp.permits, hp'.permits, hp.mem_bridges, hp'.mem_bridges, hbs]

/-- A refused bridge, a superfluous one and a repeated one leave no trace, and two bridges do not
make a third one. -/
theorem bridges_in_step_swing :
    let bs : List (Tag × Tag) := [(.swing, .fx), (.any, .worker), (.worker, .any), (.fx, .worker),
      (.swing, .fx)]
    let p := attemptAll bs
    p.bridges = [(.swing, .fx), (.fx, .worker)] ∧ p.permits .swing .worker = false ∧
      (∃ e, ofBridges bs = .error e) ∧ p.attempt (.any, .fx) = p ∧
      (attemptAll [(.fx, .worker), (.swing, .fx), (.any, .worker), (.worker, .any)]).permits =
        p.permits := by
  intro bs p
  obtain ⟨hpermits, -, -, hbridges, -, hlay, hrefused, -, -, hsame⟩ := bridges_in_step bs
  have hlist : p.bridges = [(.swing, .fx), (.fx, .worker)] := hbridges.trans (by decide)
  refine ⟨hlist, ?_, hrefused.2 ⟨(.any, .worker), by decide⟩, (hlay (.any, .fx)).2 (by decide),
    hsame _ fun b => ?_⟩
  · rw [Bool.eq_false_iff, ne_eq, hpermits, hlist]
    decide
  · simp only [bs, List.mem_cons, List.not_mem_nil, or_false]
    tauto

end CallPolicy

end ThreadAffinity
