import Mathlib.Data.Prod.Lex
import ThreadAffinity.Proofs.Report

/-!
From the stages of a check to the receiver of its diagnostics.

Findings are ranked by where they start, where they end and how much they matter, whether or not
they end behind their start. A report is in order of rank, and where ranks are equal the findings
stand as they were found; there is only one list of that sort (`Finding.eq_sort_iff`). The receiver
gets one diagnostic for each of them (`Checker.reported_once_in_order`). -/

namespace ThreadAffinity

namespace Finding

/-- Where a finding starts, then where it ends, then its severity, errors first. -/
def rank (f : Finding) : ℕ ×ₗ ℕ ×ₗ ℕ :=
  toLex (f.span.start.toNat, toLex (f.span.stop.toNat,
    match f.severity with
    | .error => 0
    | .advisory => 1))

theorem notAfter_iff_rank_le {f g : Finding} : f.notAfter g = true ↔ f.rank ≤ g.rank := by
  rw [notAfter_iff, ne_eq, Span.eq_iff, Span.notAfter_iff]
  simp only [rank, Prod.Lex.toLex_le_toLex]
  cases f.severity <;> cases g.severity <;> simp <;> omega

/-- A report is in order of rank. -/
theorem pairwise_rank_sort (fs : List Finding) :
    (sort fs).Pairwise fun f g => f.rank ≤ g.rank :=
  (pairwise_sort fs).imp notAfter_iff_rank_le.1

/-- Findings that are in order stay as they are. -/
theorem sort_of_pairwise {fs : List Finding} (h : fs.Pairwise fun f g => f.rank ≤ g.rank) :
    sort fs = fs := by
  rw [sort_eq]
  exact (h.imp notAfter_iff_rank_le.2).insertionSort_eq

/-- Findings of one rank keep their order. -/
theorem filter_rank_sort (fs : List Finding) (k : ℕ ×ₗ ℕ ×ₗ ℕ) :
    (sort fs).filter (·.rank = k) = fs.filter (·.rank = k) := by
  have hrank : ∀ f ∈ fs.filter (·.rank = k), f.rank = k := fun f hf => by
    simpa using List.of_mem_filter hf
  rw [filter_sort]
  refine sort_of_pairwise (List.pairwise_of_forall_mem_list fun f hf g hg => ?_)
  rw [hrank f hf, hrank g hg]

/-- Lists in order of rank that have the same findings of each rank, in the same order, are equal. -/
theorem eq_of_filter_rank : ∀ {fs gs : List Finding},
    (fs.Pairwise fun f g => f.rank ≤ g.rank) → (gs.Pairwise fun f g => f.rank ≤ g.rank) →
    (∀ k, fs.filter (·.rank = k) = gs.filter (·.rank = k)) → fs = gs
  | [], [], _, _, _ => rfl
  | [], g :: gs, _, _, h => by simpa using h g.rank
  | f :: fs, [], _, _, h => by simpa using h f.rank
  | f :: fs, g :: gs, hf, hg, h => by
    have hle : ∀ {x y : Finding} {xs ys : List Finding},
        ((x :: xs).Pairwise fun f g => f.rank ≤ g.rank) →
        (x :: xs).filter (·.rank = y.rank) = (y :: ys).filter (·.rank = y.rank) →
        x.rank ≤ y.rank := by
      intro x y xs ys hxs hxy
      have hy : y ∈ (x :: xs).filter (·.rank = y.rank) := by simp [hxy]
      rcases List.mem_cons.1 (List.mem_of_mem_filter hy) with rfl | hy
      · exact le_rfl
      · exact List.rel_of_pairwise_cons hxs hy
    have hrank : f.rank = g.rank := le_antisymm (hle hf (h _)) (hle hg (h _).symm)
    have hhead := h g.rank
    simp only [List.filter_cons, hrank, decide_true, if_true, List.cons.injEq] at hhead
    obtain ⟨rfl, -⟩ := hhead
    refine congrArg (f :: ·) (eq_of_filter_rank hf.of_cons hg.of_cons fun k => ?_)
    have hk := h k
    by_cases hfk : f.rank = k <;> simpa [List.filter_cons, hfk] using hk

/-- A report is the one list that is in order of rank and has the findings of each rank in the order
in which they were found. -/
theorem eq_sort_iff {fs gs : List Finding} : gs = sort fs ↔
    (gs.Pairwise fun f g => f.rank ≤ g.rank) ∧
      ∀ k, gs.filter (·.rank = k) = fs.filter (·.rank = k) := by
  refine ⟨?_, fun ⟨hgs, hfilter⟩ => ?_⟩
  · rintro rfl
    exact ⟨pairwise_rank_sort fs, filter_rank_sort fs⟩
  · refine eq_of_filter_rank hgs (pairwise_rank_sort fs) fun k => ?_
    rw [hfilter, filter_rank_sort]

/-- One of these findings ends before it starts, and three are at one place. -/
example :
    let late : Finding := ⟨.unannotated ⟨"app.A#m()"⟩, ⟨7, 2⟩⟩
    let first : Finding := ⟨.unannotated ⟨"app.A#m()"⟩, ⟨3, 9⟩⟩
    let second : Finding := ⟨.unannotated ⟨"app.A#k()"⟩, ⟨3, 9⟩⟩
    let error : Finding :=
      ⟨.conflictingOverride ⟨"app.A#m()"⟩ ⟨"app.B#m()"⟩ .any .swing, ⟨3, 9⟩⟩
    sort [late, first, second, error] = [error, first, second, late] := by
  decide

end Finding

/-- The errors and the advisories of a report are all its findings. -/
theorem UnitFindings.errors_append_advisories_perm (r : UnitFindings) :
    (r.errors ++ r.advisories).Perm r.findings := by
  have hrest : r.advisories = r.findings.filter fun f => !(f.severity == .error) := by
    refine List.filter_congr fun f _ => ?_
    cases f.severity <;> rfl
  rw [hrest]
  exact List.filter_append_perm _ r.findings

namespace Checker

/-- Nothing that a check finds is lost, doubled or misplaced. Its report consists of the findings
about declared tags, those of the walk and those about call sites; it is in order of rank, and
findings of one rank stand in the order in which they were found. The receiver gets one diagnostic
for each of them, in this order, with its place, severity, code and message. Each is either an error
or an advisory. -/
theorem reported_once_in_order (c : Checker) (u : SourceUnit) (host : HostTable) (b : Build) :
    let r := (c.check u host b).result
    let found := (c.declaredTags u host b).findings ++ (c.effectiveTags u host b).findings ++
      (c.callReport u host b).findings
    r.findings.Perm found ∧
    (r.findings.Pairwise fun f g => f.rank ≤ g.rank) ∧
    (∀ k, r.findings.filter (·.rank = k) = found.filter (·.rank = k)) ∧
    List.Forall₂ (fun f d => d =
        { file := u.path, span := f.span, severity := f.severity, code := f.problem.code,
          message := f.problem.message })
      r.findings (reported u r) ∧
    (r.errors ++ r.advisories).Perm r.findings ∧
    (∀ f ∈ r.errors, f.severity = .error) ∧ ∀ f ∈ r.advisories, f.severity = .advisory := by
  intro r found
  have hsorted : r.findings = Finding.sort found := congrArg (·.findings) (c.check_result u host b)
  obtain ⟨hrank, hties⟩ := Finding.eq_sort_iff.1 hsorted
  refine ⟨c.findings_perm u host b, hrank, hties, ?_, r.errors_append_advisories_perm,
    fun f hf => ?_, fun f hf => ?_⟩
  · rw [reported, diagnostics, List.forall₂_map_right_iff]
    exact List.forall₂_same.2 fun f _ => rfl
  · simpa using List.of_mem_filter hf
  · simpa using List.of_mem_filter hf

end Checker

end ThreadAffinity
