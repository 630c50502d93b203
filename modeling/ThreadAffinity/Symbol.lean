/-!
Qualified names of declarations.

A symbol is written `owner#member`: the qualified name of the declaring type, a number sign, and
the member with its erased signature. A symbol without a number sign names a type. Symbols are
ordered by the code points of their text. -/

namespace ThreadAffinity

/-- The identity of a declaration. -/
structure Symbol where
  text : String
deriving DecidableEq, Repr, Inhabited

namespace Symbol

/-- The declaring type: all that stands before the first `#`. -/
def owner (s : Symbol) : String := String.ofList (s.text.toList.takeWhile (· != '#'))

instance : LT Symbol := ⟨fun a b => a.text < b.text⟩

instance : DecidableLT Symbol := fun a b => inferInstanceAs (Decidable (a.text < b.text))

theorem lt_irrefl (a : Symbol) : ¬ a < a := String.lt_irrefl a.text

theorem lt_trans {a b c : Symbol} (h : a < b) (h' : b < c) : a < c := String.lt_trans h h'

theorem ne_of_lt {a b : Symbol} (h : a < b) : a ≠ b := fun e => lt_irrefl b (e ▸ h)

/-- Of two different symbols one comes first. -/
theorem lt_or_gt_of_ne {a b : Symbol} (h : a ≠ b) : a < b ∨ b < a := by
  by_cases hab : a < b
  · exact Or.inl hab
  · refine Or.inr (Decidable.byContradiction fun hba => h ?_)
    have : a.text = b.text := String.le_antisymm (String.not_lt.1 hba) (String.not_lt.1 hab)
    cases a; cases b; simp_all

end Symbol

end ThreadAffinity
