import ThreadAffinity.Text.Lowercase

/-!
Edit distance between two texts, and the nearest of several names.

`editDistance` counts the insertions, deletions and substitutions of single letters that turn one
lowercased text into the other. It runs down the letters of the first text and keeps two rows of the
usual table, the finished one and the one that is being written over an older one: cell `j` of a
row holds the distance from the letters read so far to the first `j` letters of the second text. -/

namespace ThreadAffinity.Text

/-- The two rows that are kept of the table for a second word of `n` letters. -/
structure Rows (n : Nat) where
  /-- The row that was finished last. -/
  above : Vector Nat (n + 1)
  /-- The row that is written next. Until then it holds what an older row has left there. -/
  below : Vector Nat (n + 1)

/-- Writes the cells behind cell `j` of the row for the letter `c`, one for each letter of the
second word that is still to come. -/
def fillRow {n : Nat} (c : Char) (above : Vector Nat (n + 1)) :
    (bs : List Char) → (j : Nat) → j + bs.length = n → (below : Vector Nat (n + 1)) →
      Vector Nat (n + 1)
  | [], _, _, below => below
  | b :: bs, j, h, below =>
    have hj : j + 1 < n + 1 := by rw [List.length_cons] at h; omega
    let cell := min (min (above[j + 1] + 1) (below[j] + 1)) (above[j] + if c = b then 0 else 1)
    fillRow c above bs (j + 1) (by rw [List.length_cons] at h; omega) (below.set (j + 1) cell)

/-- Takes in the letters of the first word that follow its first `i`. The row that a letter has
written and the row above it change places. -/
def Rows.takeIn (bs : List Char) : (as : List Char) → (i : Nat) → Rows bs.length → Rows bs.length
  | [], _, rows => rows
  | a :: as, i, rows =>
    takeIn bs as (i + 1)
      ⟨fillRow a rows.above bs 0 (Nat.zero_add _) (rows.below.set 0 (i + 1)), rows.above⟩

/-- The last cell of the last row; an empty word is as far away as the other one is long. -/
def letterDistance (as bs : List Char) : Nat :=
  if as.isEmpty then bs.length
  else if bs.isEmpty then as.length
  else
    let rows := Rows.takeIn bs as 0 ⟨.range (bs.length + 1), .replicate (bs.length + 1) 0⟩
    rows.above[bs.length]

/-- The edit distance of two texts, blind to case. -/
def editDistance (a b : String) : Nat := letterDistance (lowercase a) (lowercase b)

/-- Keeps the better of two candidates, the earlier one when they are equally far. -/
def keepNearer (best : Option (Nat × String)) (next : Nat × String) : Option (Nat × String) :=
  match best with
  | some b => if next.1 < b.1 then some next else some b
  | none => some next

/-- The first of the nearest candidates, if it is at most `threshold` edits away. -/
def nearest? (name : String) (candidates : List String) (threshold : Nat) : Option String :=
  let near := (candidates.map fun c => (editDistance name c, c)).filter (·.1 ≤ threshold)
  (near.foldl keepNearer none).map (·.2)

/-- The words that offer a name to the reader, or nothing. -/
def suggestion : Option String → String
  | some name => " (did you mean `" ++ name ++ "`?)"
  | none => ""

end ThreadAffinity.Text
