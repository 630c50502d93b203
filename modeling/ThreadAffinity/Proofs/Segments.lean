import Mathlib.Data.List.Sort
import Mathlib.Data.List.TakeWhile
import ThreadAffinity.Exclusions

/-!
Packages are left out by the segments of a name.

A name lies within a package when the package is followed by nothing, by a dot or by a dollar sign,
or when it ends in a dot itself and something follows (`Within`). That is what `liesUnder?` decides.
It cuts by bytes, but only behind a stem that has just been found at the front of the name, so the
cut is always between two characters (`Text.behind?_append`).

Exclusions list the trimmed texts that are not blank, in ascending order and each once
(`Exclusions.mem_packages_iff`, `Exclusions.pairwise_packages`), so they do not depend on how the
texts are arranged, repeated or padded. -/

namespace ThreadAffinity

namespace Text

/-! ### Cutting by bytes -/

theorem byteCount_append (cs ds : List Char) :
    byteCount (cs ++ ds) = byteCount cs + byteCount ds := by
  induction cs with
  | nil => simp [byteCount]
  | cons c cs ih =>
    rw [List.cons_append, byteCount, byteCount, ih]
    omega

theorem byteCount_eq_zero_iff {cs : List Char} : byteCount cs = 0 ↔ cs = [] := by
  cases cs with
  | nil => simp [byteCount]
  | cons c cs =>
    have hpos := c.utf8Size_pos
    rw [byteCount]
    simp only [reduceCtorEq, iff_false]
    omega

/-- The bytes of what a text starts with end between two characters. -/
theorem behind?_append : ∀ cs ds : List Char, behind? (byteCount cs) (cs ++ ds) = some ds
  | [], _ => by rw [byteCount_eq_zero_iff.2 rfl, behind?, List.nil_append]
  | c :: cs, ds => by
    have hpos := c.utf8Size_pos
    have hsum : byteCount (c :: cs) = c.utf8Size + byteCount cs := rfl
    obtain ⟨n, hn⟩ : ∃ n, byteCount (c :: cs) = n + 1 := ⟨byteCount (c :: cs) - 1, by omega⟩
    have hrest : n + 1 - c.utf8Size = byteCount cs := by omega
    rw [hn, List.cons_append, behind?, if_pos (by omega), hrest, behind?_append cs ds]

/-! ### Blanks around a text -/

/-- A text of nothing but blanks. -/
def Blank (s : String) : Prop := ∀ c ∈ s.toList, isBlank c = true

instance (s : String) : Decidable (Blank s) :=
  decidable_of_iff (s.toList.all isBlank = true) List.all_eq_true

theorem trimBlanks_append_blank {cs blanks : List Char} (h : ∀ c ∈ blanks, isBlank c = true) :
    trimBlanks (cs ++ blanks) = trimBlanks cs := by
  have hnone : blanks.dropWhile isBlank = [] := List.dropWhile_eq_nil_iff.2 h
  rw [trimBlanks, trimBlanks, List.dropWhile_append]
  split
  case isTrue hall =>
    rw [hnone, List.isEmpty_iff.1 hall]
  case isFalse =>
    have hback : ∀ c ∈ blanks.reverse, isBlank c = true := fun c hc => h c (List.mem_reverse.1 hc)
    rw [dropTrailingBlanks, dropTrailingBlanks, List.reverse_append,
      List.dropWhile_append_of_pos hback]

/-- Blanks around a text do not matter once it is trimmed. -/
theorem trim_padded {front back : String} (t : String) (hfront : Blank front) (hback : Blank back) :
    trim (front ++ t ++ back) = trim t := by
  rw [trim, trim, String.toList_append, trimBlanks_append_blank hback, String.toList_append,
    trimBlanks, List.dropWhile_append_of_pos hfront, trimBlanks]

theorem trim_of_blank {s : String} (h : Blank s) : trim s = "" := by
  rw [trim, trimBlanks, List.dropWhile_eq_nil_iff.2 h]
  rfl

end Text

/-! ### One package -/

/-- The package is written with a final dot. -/
def EndsInDot (package : String) : Prop := package.toList.getLast? = some '.'

instance (package : String) : Decidable (EndsInDot package) :=
  inferInstanceAs (Decidable (package.toList.getLast? = some '.'))

/-- The name goes on from the package at the end of a segment. -/
def Within (package name : String) : Prop :=
  ∃ rest, name = package ++ rest ∧
    (¬ EndsInDot package ∧ (rest = "" ∨ (∃ r, rest = "." ++ r) ∨ ∃ r, rest = "$" ++ r) ∨
      EndsInDot package ∧ rest ≠ "")

theorem isNameEnd_iff {rest : String} : isNameEnd rest.toList = true ↔
    rest = "" ∨ (∃ r, rest = "." ++ r) ∨ ∃ r, rest = "$" ++ r := by
  obtain ⟨cs, rfl⟩ : ∃ cs, rest = String.ofList cs := ⟨rest.toList, by simp⟩
  have hfront : ∀ (c : Char) (ds : List Char) (sign : String), sign.toList = [c] →
      (∃ r, String.ofList (c :: ds) = sign ++ r) := fun c ds sign hsign =>
    ⟨String.ofList ds, by simp [← String.toList_inj, hsign]⟩
  cases cs with
  | nil => simp [isNameEnd]
  | cons c cs =>
    simp only [String.toList_ofList, isNameEnd, Bool.or_eq_true, beq_iff_eq]
    constructor
    · rintro (rfl | rfl)
      · exact .inr (.inl (hfront '.' cs "." rfl))
      · exact .inr (.inr (hfront '$' cs "$" rfl))
    · rintro (h | ⟨r, h⟩ | ⟨r, h⟩) <;> simp_all [← String.toList_inj]

/-- Without a final dot, what follows the package must end its segment. -/
theorem within_iff_of_plain {package name : String} (h : ¬ EndsInDot package) :
    Within package name ↔ ∃ rest, name = package ++ rest ∧ isNameEnd rest.toList = true := by
  simp only [Within, h, isNameEnd_iff, not_false_eq_true, true_and, false_and, or_false]

theorem within_iff_of_endsInDot {package name : String} (h : EndsInDot package) :
    Within package name ↔ ∃ rest, name = package ++ rest ∧ rest ≠ "" := by
  simp only [Within, h, not_true_eq_false, true_and, false_and, false_or]

/-- What is nested in a name lies within every package that the name lies within. -/
theorem Within.nested {package name : String} (h : Within package name) {sign : String}
    (hsign : sign = "." ∨ sign = "$") (r : String) : Within package (name ++ sign ++ r) := by
  obtain ⟨rest, rfl, hrest⟩ := h
  refine ⟨rest ++ sign ++ r, by simp [String.append_assoc], ?_⟩
  rcases hrest with ⟨hplain, hrest⟩ | ⟨hdot, hrest⟩
  · refine .inl ⟨hplain, ?_⟩
    rcases hrest with rfl | ⟨q, rfl⟩ | ⟨q, rfl⟩
    · rcases hsign with rfl | rfl
      · exact .inr (.inl ⟨r, by simp⟩)
      · exact .inr (.inr ⟨r, by simp⟩)
    · exact .inr (.inl ⟨q ++ sign ++ r, by simp [String.append_assoc]⟩)
    · exact .inr (.inr ⟨q ++ sign ++ r, by simp [String.append_assoc]⟩)
  · exact .inr ⟨hdot, by simp [hrest]⟩

theorem liesUnder?_concat_dot (stem name : List Char) : liesUnder? (stem ++ ['.']) name =
    if Text.byteCount (stem ++ ['.']) < Text.byteCount name && stem.isPrefixOf name then
      (Text.behind? (Text.byteCount stem) name).map fun rest => rest.head? == some '.'
    else some false := by
  rw [liesUnder?, if_neg (by simp), if_pos List.getLast?_concat, List.dropLast_concat]

theorem liesUnder?_of_endsInDot {package name : String} (h : EndsInDot package) :
    ∃ b, liesUnder? package.toList name.toList = some b ∧ (b = true ↔ Within package name) := by
  obtain ⟨stem, hstem⟩ := List.getLast?_eq_some_iff.1 h
  rw [within_iff_of_endsInDot h, hstem, liesUnder?_concat_dot, ← hstem]
  split
  case isTrue hfits =>
    -- The name is longer than the package and starts with the stem, so it can be cut there.
    rw [Bool.and_eq_true, decide_eq_true_eq, List.isPrefixOf_iff_prefix] at hfits
    obtain ⟨hlonger, rest, hrest⟩ := hfits
    rw [← hrest, Text.behind?_append, Option.map_some]
    refine ⟨_, rfl, ?_⟩
    rw [beq_iff_eq, List.head?_eq_some_iff]
    constructor
    · rintro ⟨below, rfl⟩
      refine ⟨String.ofList below, ?_, ?_⟩
      · rw [← String.toList_inj, ← hrest, String.toList_append, hstem]
        simp
      · intro hnone
        rw [← hrest, hstem] at hlonger
        simp_all
    · rintro ⟨below, rfl, -⟩
      rw [String.toList_append, hstem, List.append_assoc, List.append_cancel_left_eq] at hrest
      exact ⟨below.toList, hrest⟩
  case isFalse hfits =>
    refine ⟨false, rfl, ?_⟩
    simp only [Bool.false_eq_true, false_iff]
    rintro ⟨below, rfl, hbelow⟩
    refine hfits (Bool.and_eq_true _ _ ▸ ⟨?_, ?_⟩)
    · have hpos : Text.byteCount below.toList ≠ 0 := by
        rw [ne_eq, Text.byteCount_eq_zero_iff, String.toList_eq_nil_iff]
        exact hbelow
      rw [String.toList_append, Text.byteCount_append, decide_eq_true_eq]
      omega
    · rw [List.isPrefixOf_iff_prefix, String.toList_append, hstem, List.append_assoc]
      exact List.prefix_append _ _

theorem liesUnder?_of_plain {package name : String} (hne : package ≠ "") (h : ¬ EndsInDot package) :
    ∃ b, liesUnder? package.toList name.toList = some b ∧ (b = true ↔ Within package name) := by
  have hlast : package.toList.getLast? ≠ some '.' := h
  refine ⟨_, by rw [liesUnder?, if_neg (by simpa using hne), if_neg hlast], ?_⟩
  rw [within_iff_of_plain h, Option.any_eq_true]
  constructor
  · rintro ⟨rest, hrest, hend⟩
    refine ⟨String.ofList rest, ?_, by rwa [String.toList_ofList]⟩
    rw [← String.toList_inj, String.toList_append, String.toList_ofList]
    exact (List.isPrefixOf?_eq_some_iff_append_eq.1 hrest).symm
  · rintro ⟨rest, rfl, hend⟩
    exact ⟨rest.toList, List.isPrefixOf?_eq_some_iff_append_eq.2 String.toList_append.symm, hend⟩

/-- No cut goes wrong, and a name lies under a package exactly when it lies within it. -/
theorem liesUnder?_eq {package name : String} (hne : package ≠ "") :
    ∃ b, liesUnder? package.toList name.toList = some b ∧ (b = true ↔ Within package name) := by
  by_cases h : EndsInDot package
  · exact liesUnder?_of_endsInDot h
  · exact liesUnder?_of_plain hne h

theorem liesUnder_iff {package name : String} (hne : package ≠ "") :
    liesUnder package.toList name.toList = true ↔ Within package name := by
  obtain ⟨b, hb, hiff⟩ : ∃ b, liesUnder? package.toList name.toList = some b ∧
      (b = true ↔ Within package name) := liesUnder?_eq hne
  rw [liesUnder, hb, Option.getD_some, hiff]

namespace Exclusions

/-! ### The list of packages -/

theorem mem_place {p q : String} : ∀ {ps : List String}, q ∈ place p ps ↔ q = p ∨ q ∈ ps
  | [] => by simp [place]
  | r :: rs => by
    rw [place]
    split
    · rw [List.mem_cons, mem_place, List.mem_cons]
      exact or_left_comm
    · rw [List.mem_cons]

theorem pairwise_place (p : String) :
    ∀ {ps : List String}, ps.Pairwise (· ≤ ·) → (place p ps).Pairwise (· ≤ ·)
  | [], _ => by simp [place]
  | q :: qs, h => by
    obtain ⟨hq, hqs⟩ := List.pairwise_cons.1 h
    rw [place]
    split
    case isTrue hlt =>
      refine List.pairwise_cons.2 ⟨fun r hr => ?_, pairwise_place p hqs⟩
      rcases mem_place.1 hr with rfl | hr
      · exact String.lt_asymm hlt
      · exact hq r hr
    case isFalse hle =>
      refine List.pairwise_cons.2 ⟨fun r hr => ?_, h⟩
      rcases List.mem_cons.1 hr with rfl | hr
      · exact hle
      · exact String.le_trans hle (hq r hr)

theorem mem_dropRepeats {p : String} {ps : List String} : p ∈ dropRepeats ps ↔ p ∈ ps := by
  fun_induction dropRepeats ps with
  | case1 q qs ih => simp [ih]
  | case2 q r rs _ ih => rw [List.mem_cons, ih, List.mem_cons (a := p) (b := q)]
  | case3 => exact Iff.rfl

theorem pairwise_dropRepeats :
    ∀ {ps : List String}, ps.Pairwise (· ≤ ·) → (dropRepeats ps).Pairwise (· < ·)
  | [], _ => .nil
  | [_], _ => List.pairwise_singleton _ _
  | p :: q :: qs, h => by
    obtain ⟨hp, hqs⟩ := List.pairwise_cons.1 h
    rw [dropRepeats]
    split
    case isTrue => exact pairwise_dropRepeats hqs
    case isFalse hne =>
      refine List.pairwise_cons.2 ⟨fun r hr => ?_, pairwise_dropRepeats hqs⟩
      -- Nothing behind `q` comes before it, so only a copy of `p` at `q` could equal `p`.
      have hqr : q ≤ r := by
        rcases List.mem_cons.1 (mem_dropRepeats.1 hr) with rfl | hr
        · exact String.le_refl r
        · exact (List.pairwise_cons.1 hqs).1 r hr
      by_contra hge
      exact hne (String.le_antisymm (hp q List.mem_cons_self) (String.le_trans hqr hge))

theorem mem_packages_iff {texts : List String} {p : String} :
    p ∈ (ofTexts texts).packages ↔ p ≠ "" ∧ ∃ t ∈ texts, Text.trim t = p := by
  have hplaced : ∀ ps : List String, p ∈ ps.foldr place [] ↔ p ∈ ps := by
    intro ps
    induction ps with
    | nil => exact Iff.rfl
    | cons q qs ih => rw [List.foldr_cons, mem_place, ih, List.mem_cons]
  rw [ofTexts, mem_dropRepeats, hplaced, List.mem_filter, List.mem_map, bne_iff_ne]
  exact and_comm

theorem pairwise_packages (texts : List String) : (ofTexts texts).packages.Pairwise (· < ·) := by
  have hascending : ∀ ps : List String, (ps.foldr place []).Pairwise (· ≤ ·) := by
    intro ps
    induction ps with
    | nil => exact .nil
    | cons p ps ih => exact pairwise_place p ih
  exact pairwise_dropRepeats (hascending _)

instance : Std.Irrefl fun p q : String => p < q := ⟨String.lt_irrefl⟩

instance : Std.Antisymm fun p q : String => p < q :=
  ⟨fun _ _ h h' => absurd h' (String.lt_asymm h)⟩

/-- Texts that come to the same packages come to the same exclusions. -/
theorem ofTexts_congr {texts texts' : List String}
    (h : ∀ p, p ≠ "" → ((∃ t ∈ texts, Text.trim t = p) ↔ ∃ t ∈ texts', Text.trim t = p)) :
    ofTexts texts = ofTexts texts' := by
  have hsame := (pairwise_packages texts).eq_of_mem_iff (pairwise_packages texts') fun p => by
    rw [mem_packages_iff, mem_packages_iff]
    exact and_congr_right (h p)
  cases hx : ofTexts texts
  cases hy : ofTexts texts'
  simp_all

/-- The same texts in another guise: in another order, repeated, padded with blanks, or with blank
texts among them. -/
inductive Respelt : List String → List String → Prop
  | reordered {texts texts' : List String} : texts.Perm texts' → Respelt texts texts'
  | repeated {t : String} {texts : List String} : t ∈ texts → Respelt texts (t :: texts)
  | blank {t : String} {texts : List String} : Text.Blank t → Respelt texts (t :: texts)
  | padded {front back : String} (t : String) (texts : List String) :
    Text.Blank front → Text.Blank back → Respelt (t :: texts) ((front ++ t ++ back) :: texts)
  | symm {texts texts' : List String} : Respelt texts texts' → Respelt texts' texts
  | trans {texts texts' texts'' : List String} :
    Respelt texts texts' → Respelt texts' texts'' → Respelt texts texts''

theorem Respelt.ofTexts_eq {texts texts' : List String} (h : Respelt texts texts') :
    ofTexts texts = ofTexts texts' := by
  induction h with
  | reordered h => exact ofTexts_congr fun p _ => by simp only [h.mem_iff]
  | repeated h =>
    refine ofTexts_congr fun p _ => ?_
    simp only [List.mem_cons, or_and_right, exists_or, exists_eq_left]
    exact ⟨.inr, fun hp => hp.elim (fun hp => ⟨_, h, hp⟩) id⟩
  | blank h =>
    refine ofTexts_congr fun p hp => ?_
    simp [Text.trim_of_blank h, Ne.symm hp]
  | padded t texts hfront hback =>
    exact ofTexts_congr fun p _ => by simp [Text.trim_padded t hfront hback]
  | symm _ ih => exact ih.symm
  | trans _ _ ih ih' => exact ih.trans ih'

theorem covers_iff {texts : List String} {owner : String} :
    (ofTexts texts).covers owner = true ↔
      ∃ t ∈ texts, Text.trim t ≠ "" ∧ Within (Text.trim t) owner := by
  rw [covers, List.any_eq_true]
  constructor
  · rintro ⟨p, hp, hunder⟩
    obtain ⟨hne, t, ht, rfl⟩ := mem_packages_iff.1 hp
    exact ⟨t, ht, hne, (liesUnder_iff hne).1 hunder⟩
  · rintro ⟨t, ht, hne, hwithin⟩
    exact ⟨Text.trim t, mem_packages_iff.2 ⟨hne, t, ht, rfl⟩, (liesUnder_iff hne).2 hwithin⟩

/-- Exclusions go by segments: a type is left out exactly when it lies within one of the trimmed
texts that are not blank. How the texts are arranged, repeated and padded does not matter, more
texts leave out more, and what is nested in a type that is left out is left out too. No name is cut
inside a character. -/
theorem covers_by_segments (texts : List String) (owner : String) :
    ((ofTexts texts).covers owner = true ↔
      ∃ t ∈ texts, Text.trim t ≠ "" ∧ Within (Text.trim t) owner) ∧
    (∀ texts', Respelt texts texts' →
      (ofTexts texts').covers owner = (ofTexts texts).covers owner) ∧
    (∀ texts', texts ⊆ texts' → (ofTexts texts).covers owner = true →
      (ofTexts texts').covers owner = true) ∧
    (∀ r, (ofTexts texts).covers owner = true →
      (ofTexts texts).covers (owner ++ "." ++ r) = true ∧
      (ofTexts texts).covers (owner ++ "$" ++ r) = true) ∧
    ∀ p ∈ (ofTexts texts).packages,
      ∃ b, liesUnder? p.toList owner.toList = some b ∧ (b = true ↔ Within p owner) := by
  refine ⟨covers_iff, fun texts' h => by rw [h.ofTexts_eq], fun texts' hsub h => ?_,
    fun r h => ?_, fun p hp => liesUnder?_eq (mem_packages_iff.1 hp).1⟩
  · obtain ⟨t, ht, hwithin⟩ := covers_iff.1 h
    exact covers_iff.2 ⟨t, hsub ht, hwithin⟩
  · obtain ⟨t, ht, hne, hwithin⟩ := covers_iff.1 h
    exact ⟨covers_iff.2 ⟨t, ht, hne, hwithin.nested (.inl rfl) r⟩,
      covers_iff.2 ⟨t, ht, hne, hwithin.nested (.inr rfl) r⟩⟩

/-- A package with a final dot and letters of two bytes, and one that is padded. The same packages
are listed again with blank texts and repetitions. What is nested in a left-out type is left out,
whereas the package itself and a name that only starts like it are not. -/
theorem covers_by_segments_umlauts :
    (ofTexts ["vör.", " app\t"]).covers "vör.Ä" = true ∧
    (ofTexts ["app", "", "app", "vör."]).covers "vör.Ä" = true ∧
    (ofTexts ["lib", "vör.", " app\t"]).covers "vör.Ä" = true ∧
    (ofTexts ["vör.", " app\t"]).covers "vör.Ä$é" = true ∧
    liesUnder? "vör.".toList "vör.Ä".toList = some true ∧
    (ofTexts ["vör.", " app\t"]).covers "vör." = false ∧
    (ofTexts ["vör.", " app\t"]).covers "appé" = false := by
  have hwithin : Within "vör." "vör.Ä" := ⟨"Ä", rfl, .inr ⟨by decide, by decide⟩⟩
  have hcovers : (ofTexts ["vör.", " app\t"]).covers "vör.Ä" = true :=
    (covers_by_segments ["vör.", " app\t"] "vör.Ä").1.2 ⟨"vör.", by simp, by decide, hwithin⟩
  have hpadded : Respelt ["app", "vör."] [" app\t", "vör."] :=
    .padded "app" ["vör."] (by decide : Text.Blank " ") (by decide : Text.Blank "\t")
  have hrespelt : Respelt ["vör.", " app\t"] ["app", "", "app", "vör."] :=
    ((Respelt.reordered (.swap ..)).trans hpadded.symm).trans
      ((Respelt.blank (t := "") (by decide)).trans (.repeated (t := "app") (by simp)))
  refine ⟨hcovers, ?_, ?_, ?_, ?_, ?_, ?_⟩
  · rw [(covers_by_segments _ "vör.Ä").2.1 _ hrespelt, hcovers]
  · exact (covers_by_segments _ "vör.Ä").2.2.1 _ (List.subset_cons_self ..) hcovers
  · exact ((covers_by_segments _ "vör.Ä").2.2.2.1 "é" hcovers).2
  · obtain ⟨b, hb, hiff⟩ :=
      (covers_by_segments ["vör.", " app\t"] "vör.Ä").2.2.2.2 "vör." (by decide)
    rw [hb, hiff.2 hwithin]
  · decide
  · decide

end Exclusions

end ThreadAffinity
