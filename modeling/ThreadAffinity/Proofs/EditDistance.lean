import Mathlib.Order.Bounds.Basic
import Mathlib.Order.MinMax
import ThreadAffinity.Text.EditDistance

/-!
The edit distance of two words is the least number of edits that turn one into the other.

`Edits n u v` says that `n` insertions, deletions and substitutions of single letters, anywhere in
the word and in any order, lead from `u` to `v`. `fewest` follows the recurrence of the table. It is
ACHIEVABLE, since each of its cases is an edit at the front of the word, and OPTIMAL, since a single
edit changes it by one at most (`Edit.fewest_le`).

The two rows run through the words from the left, so a row holds what `fewest` says of the letters
read so far, put in reverse (`Holds`). Whatever an older row has left behind is written over before
it is read (`fillRow_holds`). -/

namespace ThreadAffinity.Text

/-! ### Edits -/

/-- One insertion, deletion or substitution of a letter, anywhere in the word. -/
inductive Edit : List Char → List Char → Prop
  | insert (front back : List Char) (c : Char) : Edit (front ++ back) (front ++ c :: back)
  | delete (front back : List Char) (c : Char) : Edit (front ++ c :: back) (front ++ back)
  | substitute (front back : List Char) (c d : Char) :
    Edit (front ++ c :: back) (front ++ d :: back)

/-- So many edits one after another. -/
inductive Edits : Nat → List Char → List Char → Prop
  | none (u : List Char) : Edits 0 u u
  | step {n : Nat} {u v w : List Char} : Edit u v → Edits n v w → Edits (n + 1) u w

variable {n m : Nat} {u v w : List Char}

theorem Edit.cons (c : Char) (h : Edit u v) : Edit (c :: u) (c :: v) := by
  cases h with
  | insert front back d => exact .insert (c :: front) back d
  | delete front back d => exact .delete (c :: front) back d
  | substitute front back d e => exact .substitute (c :: front) back d e

theorem Edit.symm (h : Edit u v) : Edit v u := by
  cases h with
  | insert front back c => exact .delete front back c
  | delete front back c => exact .insert front back c
  | substitute front back c d => exact .substitute front back d c

theorem Edit.reverse (h : Edit u v) : Edit u.reverse v.reverse := by
  cases h with
  | insert front back c => simpa using Edit.insert back.reverse front.reverse c
  | delete front back c => simpa using Edit.delete back.reverse front.reverse c
  | substitute front back c d => simpa using Edit.substitute back.reverse front.reverse c d

theorem Edit.length_le (h : Edit u v) : v.length ≤ u.length + 1 := by
  cases h <;> simp only [List.length_append, List.length_cons] <;> omega

theorem Edits.cons (c : Char) (h : Edits n u v) : Edits n (c :: u) (c :: v) := by
  induction h with
  | none u => exact .none (c :: u)
  | step he _ ih => exact .step (he.cons c) ih

theorem Edits.trans (h : Edits n u v) (h' : Edits m v w) : Edits (n + m) u w := by
  induction h with
  | none => rwa [Nat.zero_add]
  | step he _ ih =>
    rw [Nat.add_right_comm]
    exact .step he (ih h')

theorem Edits.symm (h : Edits n u v) : Edits n v u := by
  induction h with
  | none u => exact .none u
  | step he _ ih => exact ih.trans (.step he.symm (.none _))

theorem Edits.reverse (h : Edits n u v) : Edits n u.reverse v.reverse := by
  induction h with
  | none u => exact .none u.reverse
  | step he _ ih => exact .step he.reverse ih

theorem Edits.length_le (h : Edits n u v) : v.length ≤ u.length + n := by
  induction h with
  | none => exact Nat.le_refl _
  | step he _ ih =>
    have hone := he.length_le
    omega

/-! ### The recurrence of the table -/

/-- The least number of edits, letter by letter from the front: delete the first letter, insert one
in front of it, or put one in its place. -/
def fewest : List Char → List Char → Nat
  | [], v => v.length
  | _ :: u, [] => u.length + 1
  | c :: u, d :: v =>
    min (min (fewest u (d :: v) + 1) (fewest (c :: u) v + 1)) (fewest u v + if c = d then 0 else 1)
termination_by u v => u.length + v.length

theorem fewest_nil (v : List Char) : fewest [] v = v.length := by
  rw [fewest]

theorem fewest_nil_right (u : List Char) : fewest u [] = u.length := by
  cases u <;> simp [fewest]

theorem fewest_cons_cons (c d : Char) (u v : List Char) :
    fewest (c :: u) (d :: v) =
      min (min (fewest u (d :: v) + 1) (fewest (c :: u) v + 1))
        (fewest u v + if c = d then 0 else 1) := by
  rw [fewest]

theorem fewest_self (u : List Char) : fewest u u = 0 := by
  induction u with
  | nil => exact fewest_nil []
  | cons c u ih => simp [fewest_cons_cons, ih]

/-- ACHIEVABLE: so many edits do. -/
theorem edits_fewest (u v : List Char) : Edits (fewest u v) u v := by
  match u, v with
  | [], [] => exact fewest_nil [] ▸ .none []
  | [], d :: v =>
    have ih := edits_fewest [] v
    rw [fewest_nil] at ih ⊢
    exact .step (.insert [] [] d) (ih.cons d)
  | c :: u, [] =>
    have ih := edits_fewest u []
    rw [fewest_nil_right] at ih ⊢
    exact .step (.delete [] u c) ih
  | c :: u, d :: v =>
    rw [fewest_cons_cons]
    have hdelete : Edits (fewest u (d :: v) + 1) (c :: u) (d :: v) :=
      .step (.delete [] u c) (edits_fewest u (d :: v))
    have hinsert : Edits (fewest (c :: u) v + 1) (c :: u) (d :: v) :=
      .step (.insert [] (c :: u) d) ((edits_fewest (c :: u) v).cons d)
    have hreplace : Edits (fewest u v + if c = d then 0 else 1) (c :: u) (d :: v) := by
      split
      case isTrue heq =>
        subst heq
        exact (edits_fewest u v).cons c
      case isFalse => exact .step (.substitute [] u c d) ((edits_fewest u v).cons d)
    rcases min_choice (min (fewest u (d :: v) + 1) (fewest (c :: u) v + 1))
      (fewest u v + if c = d then 0 else 1) with h | h
    · rw [h]
      rcases min_choice (fewest u (d :: v) + 1) (fewest (c :: u) v + 1) with h' | h'
      · rw [h']
        exact hdelete
      · rw [h']
        exact hinsert
    · rw [h]
      exact hreplace
termination_by u.length + v.length

theorem fewest_cons_le (c : Char) (u v : List Char) : fewest (c :: u) v ≤ fewest u v + 1 := by
  cases v with
  | nil => simp [fewest_nil_right]
  | cons d v =>
    rw [fewest_cons_cons]
    omega

theorem fewest_le_cons_right (u : List Char) (d : Char) (v : List Char) :
    fewest u (d :: v) ≤ fewest u v + 1 := by
  cases u with
  | nil => simp [fewest_nil]
  | cons c u =>
    rw [fewest_cons_cons]
    omega

/-- A letter less in front makes a difference of one at most. -/
theorem fewest_le_cons (c : Char) (u : List Char) : ∀ v, fewest u v ≤ fewest (c :: u) v + 1
  | [] => by
    simp only [fewest_nil_right, List.length_cons]
    omega
  | d :: v => by
    have ih := fewest_le_cons c u v
    have hinsert := fewest_le_cons_right u d v
    rw [fewest_cons_cons]
    omega

/-- Another letter in front makes a difference of one at most. -/
theorem fewest_substitute_le (c d : Char) (u : List Char) :
    ∀ v, fewest (c :: u) v ≤ fewest (d :: u) v + 1
  | [] => by simp [fewest_nil_right]
  | e :: v => by
    have ih := fewest_substitute_le c d u v
    rw [fewest_cons_cons, fewest_cons_cons]
    split <;> split <;> omega

/-- A difference of one at most stays so behind a common letter. -/
theorem fewest_cons_le_cons (c : Char) (h : ∀ v, fewest u v ≤ fewest w v + 1) :
    ∀ v, fewest (c :: u) v ≤ fewest (c :: w) v + 1
  | [] => by
    have hnil := h []
    simp only [fewest_nil_right, List.length_cons] at hnil ⊢
    omega
  | d :: v => by
    have ih := fewest_cons_le_cons c h v
    have hdelete := h (d :: v)
    have hreplace := h v
    rw [fewest_cons_cons, fewest_cons_cons]
    omega

/-- OPTIMAL, for one edit: it brings the target closer by one at most. -/
theorem Edit.fewest_le (h : Edit u v) (w : List Char) : fewest u w ≤ fewest v w + 1 := by
  have behind : ∀ front {u v : List Char}, (∀ w, fewest u w ≤ fewest v w + 1) →
      ∀ w, fewest (front ++ u) w ≤ fewest (front ++ v) w + 1 := by
    intro front u v h
    induction front with
    | nil => exact h
    | cons c front ih => exact fewest_cons_le_cons c ih
  cases h with
  | insert front back c => exact behind front (fewest_le_cons c back) w
  | delete front back c => exact behind front (fewest_cons_le c back) w
  | substitute front back c d => exact behind front (fewest_substitute_le c d back) w

/-- OPTIMAL: fewer edits will not do. -/
theorem Edits.fewest_le (h : Edits n u v) : fewest u v ≤ n := by
  induction h with
  | none u => exact (fewest_self u).le
  | @step n u v w he _ ih =>
    have hone := he.fewest_le w
    omega

theorem isLeast_fewest (u v : List Char) : IsLeast {n | Edits n u v} (fewest u v) :=
  ⟨edits_fewest u v, fun _ h => Edits.fewest_le h⟩

/-- It makes no difference from which end the words are read. -/
theorem fewest_reverse (u v : List Char) : fewest u.reverse v.reverse = fewest u v := by
  refine Nat.le_antisymm (edits_fewest u v).reverse.fewest_le ?_
  simpa using (edits_fewest u.reverse v.reverse).reverse.fewest_le

theorem fewest_comm (u v : List Char) : fewest u v = fewest v u :=
  Nat.le_antisymm (edits_fewest v u).symm.fewest_le (edits_fewest u v).symm.fewest_le

theorem fewest_triangle (u v w : List Char) : fewest u w ≤ fewest u v + fewest v w :=
  ((edits_fewest u v).trans (edits_fewest v w)).fewest_le

theorem fewest_eq_zero_iff : fewest u v = 0 ↔ u = v := by
  refine ⟨fun h => ?_, fun h => h ▸ fewest_self u⟩
  have hnone := edits_fewest u v
  rw [h] at hnone
  cases hnone
  rfl

/-- Substitutions as far as both words go, and insertions or deletions behind. -/
theorem fewest_le_max : ∀ u v : List Char, fewest u v ≤ max u.length v.length
  | [], v => by simp [fewest_nil]
  | u, [] => by simp [fewest_nil_right]
  | c :: u, d :: v => by
    have ih := fewest_le_max u v
    rw [fewest_cons_cons]
    simp only [List.length_cons]
    split <;> omega

/-! ### The two rows -/

/-- The row for the letters `u`, of which the last comes first: cell `k` holds the distance to the
first `k` letters of the second word. -/
def Holds (u bs : List Char) (row : Vector Nat (bs.length + 1)) : Prop :=
  ∀ k (_ : k < bs.length + 1), row[k] = fewest u (bs.take k).reverse

theorem holds_range (bs : List Char) : Holds [] bs (.range (bs.length + 1)) := by
  intro k hk
  rw [fewest_nil]
  simp
  omega

/-- A row is complete once its cells have been written up to cell `j` and the rest of the word is
taken in. -/
theorem fillRow_holds {word u : List Char} {c : Char} {above : Vector Nat (word.length + 1)}
    (habove : Holds u word above) :
    ∀ (bs : List Char) (j : Nat) (h : j + bs.length = word.length)
      (below : Vector Nat (word.length + 1)), word.drop j = bs →
      (∀ k (_ : k < word.length + 1), k ≤ j → below[k] = fewest (c :: u) (word.take k).reverse) →
      Holds (c :: u) word (fillRow c above bs j h below)
  | [], j, h, below, _, hbelow => by
    intro k hk
    exact hbelow k hk (by rw [List.length_nil] at h; omega)
  | b :: bs, j, h, below, hrest, hbelow => by
    have hj : j < word.length := by rw [List.length_cons] at h; omega
    obtain ⟨hb, hbs⟩ : word[j] = b ∧ word.drop (j + 1) = bs := by
      rw [List.drop_eq_getElem_cons hj] at hrest
      exact List.cons.inj hrest
    have htake : (word.take (j + 1)).reverse = b :: (word.take j).reverse := by
      rw [List.take_add_one, List.getElem?_eq_getElem hj, hb]
      simp
    rw [fillRow]
    refine fillRow_holds habove bs (j + 1) _ _ hbs ?_
    intro k hk hkj
    by_cases hlast : k = j + 1
    · subst hlast
      rw [Vector.getElem_set_self, htake, fewest_cons_cons, ← htake, habove (j + 1) hk,
        habove j (by omega), hbelow j (by omega) (Nat.le_refl j)]
    · rw [Vector.getElem_set_ne _ _ (Ne.symm hlast)]
      exact hbelow k hk (by omega)

/-- Each letter turns the row of the letters before it into its own. -/
theorem takeIn_holds {bs : List Char} :
    ∀ (as u : List Char) (rows : Rows bs.length), Holds u bs rows.above →
      Holds (as.reverse ++ u) bs (rows.takeIn bs as u.length).above
  | [], u, rows, h => h
  | a :: as, u, rows, h => by
    have hrow : Holds (a :: u) bs
        (fillRow a rows.above bs 0 (Nat.zero_add _) (rows.below.set 0 (u.length + 1))) := by
      refine fillRow_holds h bs 0 _ _ rfl ?_
      intro k hk hk0
      obtain rfl : k = 0 := by omega
      rw [Vector.getElem_set_self, List.take_zero, List.reverse_nil, fewest_nil_right,
        List.length_cons]
    have ih := takeIn_holds as (a :: u) ⟨_, rows.above⟩ hrow
    simpa [Rows.takeIn] using ih

theorem letterDistance_eq (as bs : List Char) : letterDistance as bs = fewest as bs := by
  rw [letterDistance]
  split
  case isTrue has => rw [List.isEmpty_iff.1 has, fewest_nil]
  case isFalse =>
    split
    case isTrue hbs => rw [List.isEmpty_iff.1 hbs, fewest_nil_right]
    case isFalse =>
      have hlast := takeIn_holds as [] ⟨_, .replicate (bs.length + 1) 0⟩ (holds_range bs)
        bs.length (Nat.lt_succ_self _)
      rw [List.append_nil, List.take_length, fewest_reverse] at hlast
      exact hlast

/-! ### Texts -/

theorem editDistance_eq_fewest (a b : String) :
    editDistance a b = fewest (lowercase a) (lowercase b) :=
  letterDistance_eq _ _

theorem editDistance_eq_zero_iff {a b : String} :
    editDistance a b = 0 ↔ lowercase a = lowercase b := by
  rw [editDistance_eq_fewest, fewest_eq_zero_iff]

/-- The edit distance of two texts is the least number of edits between their lowercase forms. So
it is a distance between these, and it lies between the difference and the maximum of their
lengths. -/
theorem editDistance_isLeast (a b : String) :
    IsLeast {n | Edits n (lowercase a) (lowercase b)} (editDistance a b) ∧
    editDistance a b = editDistance b a ∧
    (∀ c, editDistance a c ≤ editDistance a b + editDistance b c) ∧
    (editDistance a b = 0 ↔ lowercase a = lowercase b) ∧
    (lowercase a).length - (lowercase b).length ≤ editDistance a b ∧
    (lowercase b).length - (lowercase a).length ≤ editDistance a b ∧
    editDistance a b ≤ max (lowercase a).length (lowercase b).length := by
  simp only [editDistance_eq_fewest]
  have hedits := edits_fewest (lowercase a) (lowercase b)
  have hthere := hedits.length_le
  have hback := hedits.symm.length_le
  refine ⟨isLeast_fewest _ _, fewest_comm _ _, fun c => fewest_triangle _ _ _, fewest_eq_zero_iff,
    ?_, ?_, fewest_le_max _ _⟩
  · omega
  · omega

/-- Two letters are replaced and one is added; case does not count. -/
example : editDistance "kitten" "SITTING" = 3 := by
  decide +kernel

end ThreadAffinity.Text
