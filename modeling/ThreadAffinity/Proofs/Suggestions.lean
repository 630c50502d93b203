import Mathlib.Data.List.Induction
import Mathlib.Data.List.Nodup
import ThreadAffinity.Proofs.EditDistance
import ThreadAffinity.SetupError

/-!
Reading a tag name, and the hint that a misspelt one brings along.

The walk through the candidates keeps the first of the nearest ones that it has seen, as far as they
are near enough (`Shortlists`): that is what `nearest?` returns. A text is read as a tag when it is
the tag's name but for blanks around it and the case of ASCII letters. Otherwise the refusal names
the trimmed text and offers the first of the nearest tags. Distances are blind to the case of all
letters, so a text that differs from a name in the case of another letter is refused and offered
that very name. -/

namespace ThreadAffinity

namespace Text

/-! ### The nearest candidate -/

/-- The first of the candidates that are nearest to the name, by its place among them. -/
def FirstNearest (name : String) (candidates : List String) (c : String) : Prop :=
  ∃ i : Nat, candidates[i]? = some c ∧ ∀ (j : Nat) b, candidates[j]? = some b →
    editDistance name c ≤ editDistance name b ∧
      (j < i → editDistance name c < editDistance name b)

/-- What the walk holds once it has seen some candidates: none of them, when all are too far, else
the first of the nearest. -/
inductive Shortlists (name : String) (threshold : Nat) (seen : List String) :
    Option (Nat × String) → Prop
  | none (hfar : ∀ c ∈ seen, threshold < editDistance name c) :
    Shortlists name threshold seen .none
  | some {c : String} (hnear : editDistance name c ≤ threshold)
    (hfirst : FirstNearest name seen c) :
    Shortlists name threshold seen (.some (editDistance name c, c))

variable {name c c' b : String} {candidates seen : List String} {threshold : Nat}

theorem FirstNearest.mem (h : FirstNearest name candidates c) : c ∈ candidates := by
  obtain ⟨i, hi, -⟩ := h
  exact List.mem_of_getElem? hi

theorem FirstNearest.unique (h : FirstNearest name candidates c)
    (h' : FirstNearest name candidates c') : c = c' := by
  obtain ⟨i, hi, hfirst⟩ := h
  obtain ⟨i', hi', hfirst'⟩ := h'
  have hle := hfirst i' c' hi'
  have hle' := hfirst' i c hi
  rcases Nat.lt_trichotomy i i' with hlt | rfl | hlt
  · have hnearer := hle'.2 hlt
    omega
  · exact Option.some.inj (hi.symm.trans hi')
  · have hnearer := hle.2 hlt
    omega

theorem cases_of_getElem?_concat {i : Nat} (h : (seen ++ [c])[i]? = some b) :
    seen[i]? = some b ∨ i = seen.length ∧ b = c := by
  rw [List.getElem?_append] at h
  split at h
  case isTrue => exact .inl h
  case isFalse hle =>
    obtain ⟨hi, rfl⟩ := List.getElem?_eq_some_iff.1 h
    rw [List.length_singleton] at hi
    exact .inr ⟨by omega, by simp⟩

/-- One more candidate that is no nearer changes nothing. -/
theorem FirstNearest.concat_of_le (h : FirstNearest name seen c)
    (hle : editDistance name c ≤ editDistance name b) : FirstNearest name (seen ++ [b]) c := by
  obtain ⟨i, hi, hfirst⟩ := h
  obtain ⟨hlen, -⟩ := List.getElem?_eq_some_iff.1 hi
  refine ⟨i, by rw [List.getElem?_append_left hlen, hi], fun j x hj => ?_⟩
  rcases cases_of_getElem?_concat hj with hj | ⟨rfl, rfl⟩
  · exact hfirst j x hj
  · exact ⟨hle, fun hlt => by omega⟩

/-- One more candidate that is nearer than all before it takes their place. -/
theorem firstNearest_concat_of_lt (h : ∀ x ∈ seen, editDistance name b < editDistance name x) :
    FirstNearest name (seen ++ [b]) b := by
  refine ⟨seen.length, by simp, fun j x hj => ?_⟩
  rcases cases_of_getElem?_concat hj with hj | ⟨rfl, rfl⟩
  · have hlt := h x (List.mem_of_getElem? hj)
    exact ⟨hlt.le, fun _ => hlt⟩
  · exact ⟨Nat.le_refl _, fun hlt => absurd hlt (Nat.lt_irrefl _)⟩

theorem Shortlists.skip {best : Option (Nat × String)} (h : Shortlists name threshold seen best)
    (hfar : threshold < editDistance name b) : Shortlists name threshold (seen ++ [b]) best := by
  cases h with
  | none h =>
    refine .none fun x hx => ?_
    rcases List.mem_append.1 hx with hx | hx
    · exact h x hx
    · rwa [List.mem_singleton.1 hx]
  | some hnear hfirst => exact .some hnear (hfirst.concat_of_le (by omega))

theorem Shortlists.meet {best : Option (Nat × String)} (h : Shortlists name threshold seen best)
    (hb : editDistance name b ≤ threshold) :
    Shortlists name threshold (seen ++ [b]) (keepNearer best (editDistance name b, b)) := by
  cases h with
  | none h =>
    refine .some hb (firstNearest_concat_of_lt fun x hx => ?_)
    have hx := h x hx
    omega
  | @some c hnear hfirst =>
    rw [keepNearer]
    split
    case isTrue hlt =>
      refine .some hb (firstNearest_concat_of_lt fun x hx => ?_)
      obtain ⟨i, hi⟩ := List.getElem?_of_mem hx
      obtain ⟨_, _, hle⟩ := hfirst
      exact Nat.lt_of_lt_of_le hlt (hle i x hi).1
    case isFalse hle => exact .some hnear (hfirst.concat_of_le (Nat.not_lt.1 hle))

/-- The walk holds at its end what it should hold of all candidates. -/
theorem shortlists_candidates (name : String) (candidates : List String) (threshold : Nat) :
    Shortlists name threshold candidates
      (((candidates.map fun c => (editDistance name c, c)).filter (·.1 ≤ threshold)).foldl
        keepNearer none) := by
  induction candidates using List.reverseRecOn with
  | nil => exact .none (by simp)
  | append_singleton seen b ih =>
    rw [List.map_append, List.filter_append, List.foldl_append]
    by_cases hb : editDistance name b ≤ threshold
    · simpa [hb] using ih.meet hb
    · simpa [hb] using ih.skip (Nat.not_le.1 hb)

theorem nearest?_cases (name : String) (candidates : List String) (threshold : Nat) :
    (nearest? name candidates threshold = none ∧
      ∀ c ∈ candidates, threshold < editDistance name c) ∨
    ∃ c, nearest? name candidates threshold = some c ∧ editDistance name c ≤ threshold ∧
      FirstNearest name candidates c := by
  have hbest := shortlists_candidates name candidates threshold
  rw [nearest?]
  generalize List.foldl keepNearer none _ = best at hbest ⊢
  cases hbest with
  | none hfar => exact .inl ⟨rfl, hfar⟩
  | @some c hnear hfirst => exact .inr ⟨c, rfl, hnear, hfirst⟩

theorem nearest?_eq_none_iff : nearest? name candidates threshold = none ↔
    ∀ c ∈ candidates, threshold < editDistance name c := by
  rcases nearest?_cases name candidates threshold with ⟨he, hfar⟩ | ⟨c, he, hnear, hfirst⟩
  · exact ⟨fun _ => hfar, fun _ => he⟩
  · refine ⟨fun h => by simp [he] at h, fun hfar => ?_⟩
    have hc := hfar c hfirst.mem
    omega

theorem nearest?_eq_some_iff : nearest? name candidates threshold = some c ↔
    FirstNearest name candidates c ∧ editDistance name c ≤ threshold := by
  rcases nearest?_cases name candidates threshold with ⟨he, hfar⟩ | ⟨b, he, hnear, hfirst⟩
  · refine ⟨fun h => by simp [he] at h, fun ⟨hfirst, hnear⟩ => ?_⟩
    have hc := hfar c hfirst.mem
    omega
  · rw [he, Option.some.injEq]
    constructor
    · rintro rfl
      exact ⟨hfirst, hnear⟩
    · rintro ⟨hfirst', -⟩
      exact hfirst.unique hfirst'

/-! ### The words that offer a name -/

theorem suggestion_ne_empty (c : String) : suggestion (some c) ≠ "" := by
  intro h
  exact absurd (String.append_eq_empty_iff.1 h).2 (by decide)

theorem suggestion_inj : suggestion (some b) = suggestion (some c) ↔ b = c := by
  have hbetween : ∀ front back : String, front ++ b ++ back = front ++ c ++ back ↔ b = c := by
    intro front back
    simp only [← String.toList_inj, String.toList_append, List.append_cancel_right_eq,
      List.append_cancel_left_eq]
  exact hbetween _ _

end Text

namespace Tag

open Text (editDistance lowercase sameAsciiFold trim)

/-! ### The hint -/

/-- The tag is the first in listing order of those whose names are nearest to the text. -/
def IsNearest (text : String) (t : Tag) : Prop :=
  ∀ t' : Tag, editDistance text t.name ≤ editDistance text t'.name ∧
    (t'.index < t.index → editDistance text t.name < editDistance text t'.name)

variable {text s : String} {t t' : Tag} {e : SetupError}

theorem getElem?_all {i : Nat} : all[i]? = some t ↔ t.index = i := by
  constructor
  · intro h
    match i with
    | 0 | 1 | 2 | 3 | 4 | 5 => cases h; rfl
    | i + 6 => simp [all] at h
  · rintro rfl
    cases t <;> rfl

theorem name_injective (h : t.name = t'.name) : t = t' := by
  cases t <;> cases t' <;> first | rfl | simp [name] at h

theorem firstNearest_names_iff :
    Text.FirstNearest text (all.map name) t.name ↔ t.IsNearest text := by
  have hnames : ∀ {i : Nat} {b : String},
      (all.map name)[i]? = some b ↔ ∃ t : Tag, t.index = i ∧ t.name = b := by
    intro i b
    rw [List.getElem?_map, Option.map_eq_some_iff]
    simp only [getElem?_all]
  constructor
  · rintro ⟨i, hi, hfirst⟩ t'
    obtain ⟨t₀, rfl, hname⟩ := hnames.1 hi
    obtain rfl := name_injective hname
    exact hfirst t'.index t'.name (hnames.2 ⟨t', rfl, rfl⟩)
  · intro h
    refine ⟨t.index, hnames.2 ⟨t, rfl, rfl⟩, fun j b hj => ?_⟩
    obtain ⟨t', rfl, rfl⟩ := hnames.1 hj
    exact h t'

theorem forall_mem_names {p : String → Prop} : (∀ c ∈ all.map name, p c) ↔ ∀ t : Tag, p t.name := by
  simp [mem_all]

/-- The hint for a text that is no tag's name. -/
def hint (text : String) : String := Text.suggestion (Text.nearest? text (all.map name) 2)

theorem message_unknownTag (text : String) : (SetupError.unknownTag text).message =
    "configuration error: unknown thread tag `" ++ text ++ "`" ++ hint text := by
  -- Stated of any words: on these literals a search for associativity would spell them out.
  have hassoc : ∀ a b c d e : String, a ++ (b ++ c ++ d ++ e) = a ++ b ++ c ++ d ++ e := by
    intros
    simp only [String.append_assoc]
  have hwords : "configuration error: " ++ "unknown thread tag `" =
      "configuration error: unknown thread tag `" := by decide
  have hmessage : (SetupError.unknownTag text).message =
      "configuration error: " ++ ("unknown thread tag `" ++ text ++ "`" ++ hint text) := rfl
  rw [hmessage, hassoc, hwords]

theorem hint_eq_empty_iff : hint text = "" ↔ ∀ t : Tag, 2 < editDistance text t.name := by
  rw [← forall_mem_names (p := fun c => 2 < editDistance text c), ← Text.nearest?_eq_none_iff, hint]
  cases Text.nearest? text (all.map name) 2 with
  | none => exact iff_of_true rfl rfl
  | some c => exact iff_of_false (Text.suggestion_ne_empty c) nofun

theorem hint_eq_name_iff : hint text = " (did you mean `" ++ t.name ++ "`?)" ↔
    t.IsNearest text ∧ editDistance text t.name ≤ 2 := by
  rw [← firstNearest_names_iff, ← Text.nearest?_eq_some_iff, hint]
  change _ = Text.suggestion (some t.name) ↔ _
  cases Text.nearest? text (all.map name) 2 with
  | none => exact iff_of_false (Text.suggestion_ne_empty t.name).symm nofun
  | some c => rw [Text.suggestion_inj, Option.some.injEq]

theorem lowercase_name_injective (h : lowercase t.name = lowercase t'.name) : t = t' := by
  have hnodup : (all.map fun t => lowercase t.name).Nodup := by decide +kernel
  exact List.inj_on_of_nodup_map hnodup (mem_all t) (mem_all t') h

/-- A text that is a tag's name but for the case of its letters is nearest to that tag alone. -/
theorem isNearest_of_lowercase (h : lowercase text = lowercase t.name) : t.IsNearest text := by
  intro t'
  rw [Text.editDistance_eq_zero_iff.2 h]
  refine ⟨Nat.zero_le _, fun hlt => Nat.pos_of_ne_zero fun hzero => ?_⟩
  have hsame := h.symm.trans (Text.editDistance_eq_zero_iff.1 hzero)
  rw [lowercase_name_injective hsame] at hlt
  exact Nat.lt_irrefl _ hlt

/-! ### Reading -/

theorem sameAsciiFold_unique (h : sameAsciiFold t.name text = true)
    (h' : sameAsciiFold t'.name text = true) : t = t' := by
  simp only [sameAsciiFold, beq_iff_eq] at h h'
  have hsame := h.trans h'.symm
  cases t <;> cases t' <;> first | rfl | exact absurd hsame (by decide)

theorem parse_eq_ok_iff : parse s = .ok t ↔ sameAsciiFold t.name (trim s) = true := by
  rw [parse]
  split
  case h_1 t' hfind =>
    have hsome := List.find?_some hfind
    rw [Except.ok.injEq]
    exact ⟨fun h => h ▸ hsome, fun h => sameAsciiFold_unique hsome h⟩
  case h_2 hfind =>
    have hnone := List.find?_eq_none.1 hfind t (mem_all t)
    constructor
    · intro h
      cases h
    · intro h
      exact absurd h hnone

theorem parse_eq_error_iff : parse s = .error e ↔
    (∀ t : Tag, sameAsciiFold t.name (trim s) = false) ∧ e = .unknownTag (trim s) := by
  rw [parse]
  split
  case h_1 t hfind =>
    have hsome := List.find?_some hfind
    constructor
    · intro h
      cases h
    · rintro ⟨hnone, -⟩
      simp [hnone t] at hsome
  case h_2 hfind =>
    have hnone : ∀ t : Tag, sameAsciiFold t.name (trim s) = false := fun t => by
      simpa using List.find?_eq_none.1 hfind t (mem_all t)
    simp [hnone, eq_comm]

/-- The first of the nearest candidates is found when it is near enough. A text is read as the tag
that has its name, which is one at most; otherwise the refusal names the text without the blanks
around it, and offers the first of the nearest tags when one is within two edits. -/
theorem names_read_or_hinted :
    (∀ name candidates threshold,
      (∀ c, Text.nearest? name candidates threshold = some c ↔
        Text.FirstNearest name candidates c ∧ editDistance name c ≤ threshold) ∧
      (Text.nearest? name candidates threshold = none ↔
        ∀ c ∈ candidates, threshold < editDistance name c)) ∧
    ∀ s,
      (∀ t, parse s = .ok t ↔ sameAsciiFold t.name (trim s) = true) ∧
      (∀ t t' : Tag, sameAsciiFold t.name (trim s) = true →
        sameAsciiFold t'.name (trim s) = true → t = t') ∧
      (∀ e, parse s = .error e ↔
        (∀ t : Tag, sameAsciiFold t.name (trim s) = false) ∧ e = .unknownTag (trim s)) ∧
      ∃ words, (SetupError.unknownTag (trim s)).message =
          "configuration error: unknown thread tag `" ++ trim s ++ "`" ++ words ∧
        (words = "" ↔ ∀ t : Tag, 2 < editDistance (trim s) t.name) ∧
        (∀ t : Tag, words = " (did you mean `" ++ t.name ++ "`?)" ↔
          t.IsNearest (trim s) ∧ editDistance (trim s) t.name ≤ 2) ∧
        ∀ t : Tag, lowercase (trim s) = lowercase t.name →
          editDistance (trim s) t.name = 0 ∧ words = " (did you mean `" ++ t.name ++ "`?)" := by
  refine ⟨fun name candidates threshold => ⟨fun c => Text.nearest?_eq_some_iff,
    Text.nearest?_eq_none_iff⟩, fun s => ⟨fun t => parse_eq_ok_iff,
    fun t t' => sameAsciiFold_unique, fun e => parse_eq_error_iff, hint (trim s),
    message_unknownTag _, hint_eq_empty_iff, fun t => hint_eq_name_iff, fun t h => ?_⟩⟩
  have hzero := Text.editDistance_eq_zero_iff.2 h
  exact ⟨hzero, hint_eq_name_iff.2 ⟨isNearest_of_lowercase h, by omega⟩⟩

/-- Two candidates are equally near. A tag is read between blanks of two kinds and in another case.
A Kelvin sign is a capital `k` to the distance, but not to the reader. -/
theorem names_read_or_hinted_kelvin :
    Text.nearest? "fxy" ["Swing", "Fxz", "Fx"] 1 = some "Fxz" ∧
    Text.nearest? "fxy" ["Swing", "Fxz", "Fx"] 0 = none ∧
    parse "\u2003wORKER\n" = .ok .worker ∧
    parse " Wor\u212Aer" = .error (.unknownTag "Wor\u212Aer") ∧
    (SetupError.unknownTag "Wor\u212Aer").message =
      "configuration error: unknown thread tag `Wor\u212Aer` (did you mean `Worker`?)" := by
  have htrim : trim " Wor\u212Aer" = "Wor\u212Aer" := by decide +kernel
  obtain ⟨hnear, hread⟩ := names_read_or_hinted
  obtain ⟨-, -, herror, words, hmessage, -, -, hlower⟩ := hread " Wor\u212Aer"
  rw [htrim] at herror hmessage hlower
  have hfirst : Text.FirstNearest "fxy" ["Swing", "Fxz", "Fx"] "Fxz" := by
    refine ⟨1, rfl, fun j b hj => ?_⟩
    match j with
    | 0 | 1 | 2 => cases hj; decide +kernel
    | j + 3 => simp at hj
  refine ⟨((hnear _ _ 1).1 "Fxz").2 ⟨hfirst, by decide +kernel⟩, (hnear _ _ 0).2.2 ?_,
    ((hread _).1 .worker).2 (by decide +kernel), (herror _).2 ⟨?_, rfl⟩, ?_⟩
  · decide +kernel
  · intro t
    cases t <;> decide +kernel
  · rw [hmessage, (hlower .worker (by decide +kernel)).2]
    decide +kernel

end Tag

end ThreadAffinity
