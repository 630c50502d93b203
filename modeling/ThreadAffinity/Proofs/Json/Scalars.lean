import Mathlib.Tactic.SplitIfs
import ThreadAffinity.Json.Shape
import ThreadAffinity.Proofs.Json.Reading

/-!
Strings and numbers are read back as they were written.

A string is read piece by piece, and each escaped character is one piece. A numeral of decimal
digits is read up to the first character that is none; as long as its value fits 64 bits the digits
are all taken in. -/

namespace ThreadAffinity.Json

variable {g cs : List Char}

/-! ### Strings -/

theorem hexValue?_hexDigit {d : Nat} (h : d < 16) : hexValue? (Text.hexDigit d) = some d := by
  have table : ∀ d : Fin 16, hexValue? (Text.hexDigit d) = some d.val := by decide
  exact table ⟨d, h⟩

/-- The escape of a control character by its code point. -/
theorem reads_codePoint {n : Nat} (hn : n < 0x20) :
    Reads True codePoint ('0' :: '0' :: Text.hexDigit (n / 16) :: Text.hexDigit (n % 16) :: cs)
      (Char.ofNat n) cs := by
  have four : fourHex? ('0' :: '0' :: Text.hexDigit (n / 16) :: Text.hexDigit (n % 16) :: cs) =
      some n := by
    simp only [fourHex?, hexValue?_hexDigit (show n / 16 < 16 by omega),
      hexValue?_hexDigit (show n % 16 < 16 by omega), show hexValue? '0' = some 0 from rfl]
    exact congrArg some (by omega)
  have read : Reads True fourHex
      ('0' :: '0' :: Text.hexDigit (n / 16) :: Text.hexDigit (n % 16) :: cs) n cs :=
    fun offset => .inl ⟨trivial, offset + 4, by simp only [fourHex, four]; rfl⟩
  refine read.andThen ?_
  rw [if_neg (by simp; omega), if_pos (by simp; omega)]
  exact .pure

/-- An escape by one letter. -/
theorem reads_escapedLetter {l c : Char} (h : escapedLetter? l = some c) :
    Reads True stringPiece ('\\' :: l :: cs) (some c) cs := by
  refine reads_peek.andThen (reads_eat.andThen (reads_peek.andThen ?_))
  simp only [List.head?_cons]
  split
  · next hl =>
    cases hl
    cases h
  · simp only [Option.bind_some, h]
    exact reads_eat.andThen .pure

/-- A character that stands for itself. -/
theorem reads_plain {c : Char} (hq : c ≠ '"') (hb : c ≠ '\\') (hc : ¬ c.toNat < 0x20) :
    Reads True stringPiece (c :: cs) (some c) cs := by
  have control : isControl c = false := by simpa [isControl] using hc
  refine reads_peek.andThen (Q := True) ?_
  simp only [List.head?_cons, control]
  exact reads_eat.andThen .pure

/-- The closing quote. -/
theorem reads_closingQuote : Reads True stringPiece ('"' :: cs) none cs :=
  reads_peek.andThen (reads_eat.andThen .pure)

/-- A written character is one piece of a string. -/
theorem reads_stringPiece (c : Char) :
    Reads True stringPiece (escapeChar c ++ cs) (some c) cs := by
  unfold escapeChar
  split_ifs with hq hb h8 hf hn hr ht hc
  · subst hq
    exact reads_escapedLetter rfl
  · subst hb
    exact reads_escapedLetter rfl
  · exact h8 ▸ reads_escapedLetter rfl
  · exact hf ▸ reads_escapedLetter rfl
  · exact hn ▸ reads_escapedLetter rfl
  · exact hr ▸ reads_escapedLetter rfl
  · exact ht ▸ reads_escapedLetter rfl
  · have read : Reads True codePoint _ _ cs := reads_codePoint hc
    rw [Char.ofNat_toNat] at read
    exact reads_peek.andThen (reads_eat.andThen (reads_peek.andThen
      (reads_eat.andThen (read.andThen .pure))))
  · exact reads_plain hq hb hc

theorem escapeChar_ne_nil (c : Char) : escapeChar c ≠ [] := by
  unfold escapeChar
  split_ifs <;> exact List.cons_ne_nil _ _

/-- There are at least as many characters in the text as there are pieces. -/
theorem reads_stringPieces : ∀ {cs' : List Char} {fuel : Nat}, cs'.length < fuel →
    Reads True (stringPieces fuel) (cs'.flatMap escapeChar ++ '"' :: cs) cs' cs
  | [], fuel + 1, _ => reads_closingQuote.andThen .pure
  | c :: cs', fuel + 1, h => by
    rw [List.flatMap_cons, List.append_assoc]
    exact (reads_stringPiece c).andThen
      ((reads_stringPieces (Nat.lt_of_succ_lt_succ h)).andThen .pure)

theorem length_le_flatMap_escapeChar (cs : List Char) :
    cs.length ≤ (cs.flatMap escapeChar).length := by
  induction cs with
  | nil => exact Nat.le_refl 0
  | cons c cs ih =>
    have := List.length_pos_iff.2 (escapeChar_ne_nil c)
    simp only [List.flatMap_cons, List.length_append, List.length_cons]
    omega

/-- A written string is read back. -/
theorem reads_string (s : String) : Reads True string (writeString s ++ cs) s cs := by
  have enough : s.toList.length < (s.toList.flatMap escapeChar ++ '"' :: cs).length + 1 := by
    have := length_le_flatMap_escapeChar s.toList
    simp only [List.length_append]
    omega
  have written : writeString s ++ cs = '"' :: (s.toList.flatMap escapeChar ++ '"' :: cs) := by
    simp only [writeString, List.cons_append, List.append_assoc, List.nil_append]
  have pieces : Reads True (do return String.ofList (← stringPieces (← rounds)))
      (s.toList.flatMap escapeChar ++ '"' :: cs) (String.ofList s.toList) cs :=
    reads_rounds.andThen ((reads_stringPieces enough).andThen .pure)
  rw [String.ofList_toList] at pieces
  rw [written]
  exact reads_eat.andThen pieces

/-! ### Numbers -/

/-- The digits of a numeral, by their value. -/
def decimals (n : Nat) : List Nat := (Nat.toDigits 10 n).map fun c => c.toNat - '0'.toNat

theorem AtBreak.digitOf? (h : AtBreak cs) : cs.head?.bind digitOf? = none := by
  rcases cs with _ | ⟨c, cs⟩
  · rfl
  · simp [Json.digitOf?, (h c rfl).1]

theorem leadingDigits_append (h : AtBreak cs) : ∀ {ds : List Char}, (∀ d ∈ ds, d.isDigit = true) →
    leadingDigits (ds ++ cs) = ds.map fun c => c.toNat - '0'.toNat
  | [], _ => by
    have stop := h.digitOf?
    rcases cs with _ | ⟨c, cs⟩
    · rfl
    · simp only [List.head?_cons, Option.bind_some] at stop
      simp only [List.nil_append, leadingDigits, stop, List.map_nil]
  | d :: ds, hds => by
    have digit : digitOf? d = some (d.toNat - '0'.toNat) := if_pos (hds d (.head _))
    simp only [List.cons_append, leadingDigits, digit, List.map_cons,
      leadingDigits_append h fun e he => hds e (.tail _ he)]

theorem reads_digits {n : Nat} (h : AtBreak cs) :
    Reads True digits (Nat.toDigits 10 n ++ cs) (decimals n) cs := by
  have front : leadingDigits (Nat.toDigits 10 n ++ cs) = decimals n :=
    leadingDigits_append h fun d hd => Nat.isDigit_of_mem_toDigits (by omega) (by omega) hd
  have behind : (Nat.toDigits 10 n ++ cs).drop (decimals n).length = cs := by
    rw [decimals, List.length_map, List.drop_left]
  exact fun offset => .inl ⟨trivial, offset + (decimals n).length, by
    simp only [digits, front, behind]⟩

/-- Only the numeral of zero starts with a zero. -/
theorem eq_zero_of_toDigits {n : Nat} {ds : List Char} (h : Nat.toDigits 10 n = '0' :: ds) :
    n = 0 := by
  induction n using Nat.strongRecOn generalizing ds with
  | _ n ih =>
    rcases Nat.lt_or_ge n 10 with hn | hn
    · rw [Nat.toDigits_of_lt_base hn] at h
      have value := Nat.ofDigitChars_ten_toDigits (n := n)
      rw [Nat.toDigits_of_lt_base hn, (List.cons.inj h).1] at value
      exact value.symm
    · rw [Nat.toDigits_of_base_le (by omega) hn] at h
      obtain ⟨d, ds', front, _⟩ := toDigits_eq_cons (n / 10)
      rw [front] at h
      have zero := ih (n / 10) (by omega) (front.trans (by rw [(List.cons.inj h).1]))
      omega

/-- A digit other than zero. -/
theorem digitOf?_succ {d : Char} (h : d.isDigit = true) (hd : d ≠ '0') :
    ∃ k, digitOf? d = some (k + 1) := by
  have low : '0'.toNat ≤ d.toNat := by
    simp only [Char.isDigit, Bool.and_eq_true, decide_eq_true_eq] at h
    exact h.1
  have other : d.toNat ≠ '0'.toNat := fun e => hd (Char.toNat_inj.1 e)
  exact ⟨d.toNat - '0'.toNat - 1, by rw [digitOf?, if_pos h]; exact congrArg some (by omega)⟩

theorem reads_wholeDigits {n : Nat} (h : AtBreak cs) :
    Reads True wholeDigits (Nat.toDigits 10 n ++ cs) (decimals n) cs := by
  obtain ⟨d, ds, front, digit⟩ := toDigits_eq_cons n
  by_cases hd : d = '0'
  · subst hd
    obtain rfl := eq_zero_of_toDigits front
    show Reads True wholeDigits ('0' :: cs) [0] cs
    refine reads_peek.andThen (reads_eat.andThen (reads_peek.andThen ?_))
    simp only [h.digitOf?]
    exact .pure
  · obtain ⟨k, hk⟩ := digitOf?_succ digit hd
    refine reads_peek.andThen ?_
    simp only [front, List.cons_append, List.head?_cons, Option.bind_some, hk]
    rw [← List.cons_append, ← front]
    exact reads_digits h

/-- Digits whose value fits 64 bits are all taken in. -/
theorem foldWhole_eq : ∀ {ds : List Char} {value : Nat},
    Nat.ofDigitChars 10 ds value ≤ maxNatural →
    foldWhole (ds.map fun c => c.toNat - '0'.toNat) value = (Nat.ofDigitChars 10 ds value, 0)
  | [], _, _ => rfl
  | d :: ds, value, h => by
    rw [Nat.ofDigitChars_cons] at h ⊢
    have reached : value * 10 + (d.toNat - '0'.toNat) ≤ maxNatural := by
      rw [Nat.ofDigitChars_eq_ofDigitChars_zero] at h
      have := Nat.le_mul_of_pos_left (10 * value + (d.toNat - '0'.toNat))
        (Nat.pow_pos (n := ds.length) (show 0 < 10 by omega))
      omega
    rw [List.map_cons, foldWhole, if_neg (Nat.not_lt.2 reached), Nat.mul_comm value 10]
    exact foldWhole_eq h

theorem reads_fraction (h : AtBreak cs) : Reads True fraction cs none cs := by
  refine reads_peek.andThen ?_
  rw [if_neg (show cs.head? ≠ some '.' from fun e => (h '.' e).2.1 rfl)]
  exact .pure

theorem reads_exponent (h : AtBreak cs) : Reads True exponent cs none cs := by
  refine reads_peek.andThen ?_
  split
  · next e => exact absurd rfl (h 'e' e).2.2.1
  · next e => exact absurd rfl (h 'E' e).2.2.2
  · exact .pure

/-- A numeral of digits alone is read as these digits. -/
theorem reads_numeral {n : Nat} (h : AtBreak cs) :
    Reads True numeral (Nat.toDigits 10 n ++ cs) ⟨false, decimals n, none, none⟩ cs := by
  obtain ⟨d, ds, front, digit⟩ := toDigits_eq_cons n
  have unsigned : (Nat.toDigits 10 n ++ cs).head? ≠ some '-' := by
    rw [front]
    intro e
    rw [Option.some.inj e] at digit
    exact absurd digit (by decide)
  refine reads_peek.andThen ?_
  simp only [unsigned, if_false, decide_false]
  exact (reads_wholeDigits h).andThen
    ((reads_fraction h).andThen ((reads_exponent h).andThen .pure))

/-- A numeral of digits alone is read back if it fits 64 bits. -/
theorem reads_number {n : Nat} (hn : n ≤ maxNatural) (h : AtBreak cs) :
    Reads True number (Nat.toDigits 10 n ++ cs) (.natural n) cs := by
  have whole : foldWhole (decimals n) 0 = (n, 0) := by
    have fits : Nat.ofDigitChars 10 (Nat.toDigits 10 n) 0 ≤ maxNatural := by
      rwa [Nat.ofDigitChars_ten_toDigits]
    rw [decimals, foldWhole_eq fits, Nat.ofDigitChars_ten_toDigits]
  have value : Numeral.value ⟨false, decimals n, none, none⟩ = .ok (.natural n) := by
    simp [Numeral.value, whole]
  refine (reads_numeral h).andThen ?_
  rw [value]
  exact .pure

theorem reads_natural (n : UInt64) (hg : Blank g) (h : AtBreak cs) :
    Reads True natural (g ++ (Nat.toDigits 10 n.toNat ++ cs)) n cs := by
  obtain ⟨d, ds, front, digit⟩ := toDigits_eq_cons n.toNat
  have fits : n.toNat ≤ maxNatural := Nat.le_pred_of_lt n.toNat_lt
  have number := reads_number fits h
  rw [front, List.cons_append] at number ⊢
  refine (reads_look hg (isSpace_of_isDigit digit)).andThen ?_
  simp only [digit, Bool.or_true, if_true]
  refine number.andThen ?_
  simp only [UInt64.ofNat_toNat]
  exact .pure

end ThreadAffinity.Json
