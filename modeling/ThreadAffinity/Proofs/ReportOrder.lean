import Mathlib.Data.List.Sort
import ThreadAffinity.Finding

/-!
The order of a report.

`Finding.notAfter` is total and transitive, and `Finding.sort` is insertion sort by it. So a report
has exactly the findings that went into it, in order of place and severity, and findings of equal
rank keep their order: it makes no difference whether some of them were sorted beforehand
(`sort_sort_append`), and picking findings commutes with sorting (`filter_sort`). -/

namespace ThreadAffinity

theorem Span.notAfter_iff {a b : Span} : a.notAfter b = true ↔
    a.start.toNat < b.start.toNat ∨
      a.start.toNat = b.start.toNat ∧ a.stop.toNat ≤ b.stop.toNat := by
  simp [notAfter, UInt64.lt_iff_toNat_lt, UInt64.le_iff_toNat_le, UInt64.toNat_inj]

theorem Span.eq_iff {a b : Span} :
    a = b ↔ a.start.toNat = b.start.toNat ∧ a.stop.toNat = b.stop.toNat := by
  rw [UInt64.toNat_inj, UInt64.toNat_inj]
  cases a
  cases b
  simp

namespace Finding

theorem notAfter_iff {a b : Finding} : a.notAfter b = true ↔
    a.span = b.span ∧ (a.severity = .error ∨ b.severity = .advisory) ∨
      a.span ≠ b.span ∧ a.span.notAfter b.span = true := by
  unfold notAfter
  split <;> simp_all

theorem notAfter_total (a b : Finding) : a.notAfter b = true ∨ b.notAfter a = true := by
  rw [notAfter_iff, notAfter_iff]
  by_cases h : a.span = b.span
  · cases a.severity <;> cases b.severity <;> simp [h]
  · have hab := mt Span.eq_iff.2 h
    simp only [Span.notAfter_iff, h, Ne.symm h, ne_eq, not_false_eq_true, true_and]
    omega

theorem notAfter_trans {a b c : Finding} (hab : a.notAfter b = true) (hbc : b.notAfter c = true) :
    a.notAfter c = true := by
  rw [notAfter_iff, Span.notAfter_iff] at *
  rcases hab with ⟨hs, hab⟩ | ⟨hs, hab⟩
  · rcases hbc with ⟨hs', hbc⟩ | ⟨hs', hbc⟩
    · refine Or.inl ⟨hs.trans hs', ?_⟩
      rcases hab with hab | hab
      · exact Or.inl hab
      · exact hbc.imp (fun he => by simp [hab] at he) id
    · exact Or.inr (hs ▸ ⟨hs', hbc⟩)
  · rcases hbc with ⟨hs', -⟩ | ⟨hs', hbc⟩
    · exact Or.inr (hs' ▸ ⟨hs, hab⟩)
    · rw [ne_eq, Span.eq_iff] at *
      exact Or.inr (by omega)

instance : Std.Total fun a b : Finding => a.notAfter b = true := ⟨notAfter_total⟩

instance : IsTrans Finding fun a b => a.notAfter b = true := ⟨fun _ _ _ => notAfter_trans⟩

/-! ### Sorting is insertion sort -/

theorem insert_eq (f : Finding) : ∀ fs : List Finding,
    insert f fs = fs.orderedInsert (fun a b => a.notAfter b = true) f
  | [] => rfl
  | g :: gs => by rw [insert, List.orderedInsert_cons, insert_eq f gs]

theorem sort_eq (fs : List Finding) :
    sort fs = fs.insertionSort fun a b => a.notAfter b = true := by
  induction fs with
  | nil => rfl
  | cons f fs ih => rw [List.insertionSort_cons, ← ih, ← insert_eq, sort, sort, List.foldr_cons]

/-- A report has the findings that were put into it. -/
theorem sort_perm (fs : List Finding) : (sort fs).Perm fs := by
  rw [sort_eq]
  exact List.perm_insertionSort _ fs

/-- A report is in order. -/
theorem pairwise_sort (fs : List Finding) : (sort fs).Pairwise fun a b => a.notAfter b = true := by
  rw [sort_eq]
  exact List.pairwise_insertionSort _ fs

/-! ### Sorting is stable -/

/-- A finding that must come first may as well be put in first. -/
theorem insert_comm {f g : Finding} (h : f.notAfter g = false) :
    ∀ fs : List Finding, insert g (insert f fs) = insert f (insert g fs)
  | [] => by
    have hgf : g.notAfter f = true := (notAfter_total g f).resolve_right (by simp [h])
    simp [insert, h, hgf]
  | e :: es => by
    have hgf : g.notAfter f = true := (notAfter_total g f).resolve_right (by simp [h])
    by_cases hfe : f.notAfter e = true
    · have hge := notAfter_trans hgf hfe
      simp [insert, hfe, hge, hgf, h]
    · by_cases hge : g.notAfter e = true
      · simp [insert, hfe, hge, h]
      · simp [insert, hfe, hge, insert_comm h es]

/-- It makes no difference whether the first findings were sorted beforehand. -/
theorem sort_sort_append (fs gs : List Finding) : sort (sort fs ++ gs) = sort (fs ++ gs) := by
  have hinsert : ∀ (f : Finding) (es : List Finding),
      sort (insert f es ++ gs) = insert f (sort (es ++ gs)) := by
    intro f es
    induction es with
    | nil => rfl
    | cons e es ih =>
      by_cases hfe : f.notAfter e = true
      · rw [insert, if_pos hfe]
        rfl
      · rw [insert, if_neg hfe]
        change insert e (sort (insert f es ++ gs)) = insert f (insert e (sort (es ++ gs)))
        rw [ih, insert_comm (by simpa using hfe)]
  induction fs with
  | nil => rfl
  | cons f fs ih =>
    change sort (insert f (sort fs) ++ gs) = insert f (sort (fs ++ gs))
    rw [hinsert, ih]

theorem filter_insert (p : Finding → Bool) (f : Finding) :
    ∀ {fs : List Finding}, (fs.Pairwise fun a b => a.notAfter b = true) →
      (insert f fs).filter p = if p f then insert f (fs.filter p) else fs.filter p
  | [], _ => by cases h : p f <;> simp [insert, h]
  | g :: gs, hs => by
    obtain ⟨hg, hgs⟩ := List.pairwise_cons.1 hs
    by_cases hfg : f.notAfter g = true
    · -- Nothing that is picked from behind `g` may stand before `f`.
      have hfront : insert f ((g :: gs).filter p) = f :: (g :: gs).filter p := by
        cases hpicked : (g :: gs).filter p with
        | nil => rfl
        | cons e es =>
          have he : e ∈ g :: gs := List.mem_of_mem_filter (hpicked ▸ List.mem_cons_self)
          have hfe : f.notAfter e = true := by
            rcases List.mem_cons.1 he with rfl | he
            · exact hfg
            · exact notAfter_trans hfg (hg e he)
          rw [insert, if_pos hfe]
      rw [insert, if_pos hfg, hfront]
      cases h : p f <;> simp [List.filter_cons, h]
    · rw [insert, if_neg hfg, List.filter_cons, List.filter_cons, filter_insert p f hgs]
      cases p f <;> cases p g <;> simp [insert, hfg]

/-- Picking findings commutes with sorting. -/
theorem filter_sort (p : Finding → Bool) (fs : List Finding) :
    (sort fs).filter p = sort (fs.filter p) := by
  induction fs with
  | nil => rfl
  | cons f fs ih =>
    change (insert f (sort fs)).filter p = _
    rw [filter_insert p f (pairwise_sort fs), ih, List.filter_cons]
    cases p f <;> rfl

end Finding

end ThreadAffinity
