import ThreadAffinity.Json.Skip
import ThreadAffinity.Proofs.Json.Spelling

/-!
What a reading does, whatever stands before the cursor.

A reading is described by the characters that it starts from, the value that it gives and the
characters that it leaves. It may find that brackets nest deeper than allowed; the description says
on what condition it does not. Offsets only ever tell where a fault is, so they are left open. -/

namespace ThreadAffinity.Json

variable {α β : Type} {P Q : Prop} {cs cs' cs'' g : List Char} {x : α} {y : β} {r : Reading α}

/-- From `cs` the reading gives `x` and leaves `cs'`, provided that `fits`; otherwise it stops
because brackets nest too deep. -/
def Reads (fits : Prop) (r : Reading α) (cs : List Char) (x : α) (cs' : List Char) : Prop :=
  ∀ offset,
    (fits ∧ ∃ offset', r ⟨cs, offset⟩ = .ok (x, ⟨cs', offset'⟩)) ∨
    (¬ fits ∧ ∃ offset', r ⟨cs, offset⟩ = .error (.placed .nestedTooDeep offset'))

namespace Reads

theorem congr (h : Reads P r cs x cs') (hPQ : P ↔ Q) : Reads Q r cs x cs' := by
  rwa [← propext hPQ]

theorem pure : Reads True (pure x) cs x cs := fun offset => .inl ⟨trivial, offset, rfl⟩

/-- Two readings, one after the other: nothing of the second is reached if the first does not fit. -/
theorem bind {f : α → Reading β} (h : Reads P r cs x cs') (hf : P → Reads Q (f x) cs' y cs'') :
    Reads (P ∧ Q) (r >>= f) cs y cs'' := by
  intro offset
  rcases h offset with ⟨hP, offset', hr⟩ | ⟨hP, offset', hr⟩
  · have step : (r >>= f) ⟨cs, offset⟩ = f x ⟨cs', offset'⟩ := by
      simp only [Bind.bind, StateT.bind, hr, Except.bind]
    rcases hf hP offset' with ⟨hQ, done⟩ | ⟨hQ, done⟩
    · exact .inl ⟨⟨hP, hQ⟩, step ▸ done⟩
    · exact .inr ⟨fun h => hQ h.2, step ▸ done⟩
  · refine .inr ⟨fun h => hP h.1, offset', ?_⟩
    simp only [Bind.bind, StateT.bind, hr, Except.bind]

/-- A reading behind one that always fits. -/
theorem andThen {f : α → Reading β} (h : Reads True r cs x cs') (hf : Reads Q (f x) cs' y cs'') :
    Reads Q (r >>= f) cs y cs'' :=
  (h.bind fun _ => hf).congr (iff_of_eq (true_and Q))

/-- A reading in front of one that always fits. -/
theorem before {f : α → Reading β} (h : Reads P r cs x cs') (hf : Reads True (f x) cs' y cs'') :
    Reads P (r >>= f) cs y cs'' :=
  (h.bind fun _ => hf).congr (iff_of_eq (and_true P))

end Reads

/-! ### Single steps -/

theorem reads_eat {c : Char} : Reads True eat (c :: cs) () cs :=
  fun _ => .inl ⟨trivial, _, rfl⟩

theorem reads_peek : Reads True peek cs cs.head? cs := fun _ => .inl ⟨trivial, _, rfl⟩

theorem reads_rounds : Reads True rounds cs (cs.length + 1) cs := fun _ => .inl ⟨trivial, _, rfl⟩

theorem reads_failPeek : Reads False (failPeek .nestedTooDeep) cs x cs' :=
  fun _ => .inr ⟨not_false, _, rfl⟩

/-- Looking passes over the spaces in front. -/
theorem reads_look {c : Char} (hg : Blank g) (hc : isSpace c = false) :
    Reads True look (g ++ c :: cs) (some c) (c :: cs) := by
  intro offset
  have skipped : (g ++ c :: cs).dropWhile isSpace = c :: cs := by
    rw [List.dropWhile_append_of_pos hg, List.dropWhile_cons_of_neg (by simp [hc])]
  exact .inl ⟨trivial, offset + ((g ++ c :: cs).takeWhile isSpace).length, by
    simp only [look, Cursor.skipSpace, skipped, List.head?_cons]⟩

theorem reads_literal : ∀ {ls : List Char}, Reads True (literal ls) (ls ++ cs) () cs
  | [] => .pure
  | l :: ls => reads_peek.andThen (by
    simp only [List.cons_append, List.head?_cons, if_true]
    exact reads_eat.andThen reads_literal)

/-- A content and the end of the bracket around it. -/
theorem reads_enclosed {close : Reading Unit} {reach : Cursor → Nat} (h : Reads P r cs x cs')
    (hclose : Reads True close cs' () cs'') : Reads P (enclosed r close reach) cs x cs'' := by
  intro offset
  rcases h offset with ⟨hP, offset', hr⟩ | ⟨hP, offset', hr⟩
  · rcases hclose offset' with ⟨_, offset'', hc⟩ | ⟨absurd, _⟩
    · exact .inl ⟨hP, offset'', by simp only [enclosed, hr, hc, Except.map]⟩
    · exact (absurd trivial).elim
  · exact .inr ⟨hP, offset', by simp only [enclosed, hr]⟩

theorem reads_colon (hg : Blank g) : Reads True colon (g ++ ':' :: cs) () cs :=
  (reads_look hg (by decide)).andThen reads_eat

/-- Behind the last part nothing is left but spaces. -/
theorem reads_look_end (hg : Blank g) : Reads True look g none [] := by
  intro offset
  have skipped : g.dropWhile isSpace = [] := by
    rw [← List.append_nil g, List.dropWhile_append_of_pos hg, List.dropWhile_nil]
  exact .inl ⟨trivial, offset + (g.takeWhile isSpace).length, by
    simp only [look, Cursor.skipSpace, skipped, List.head?_nil]⟩

/-- A value is the whole text if nothing but spaces stands behind it. -/
theorem reads_whole (h : Reads P r cs x g) (hg : Blank g) :
    Reads P (do
      let x ← r
      match ← look with
      | some _ => failPeek .trailingCharacters
      | none => pure x) cs x [] :=
  h.before ((reads_look_end hg).andThen .pure)

/-- A whole text is read if it fits and if nothing but spaces stands behind the value. -/
theorem document_of_reads {text : List Char} (h : Reads P r text x g) (hg : Blank g) :
    (P ∧ document r (String.ofList text) = .ok x) ∨
    (¬ P ∧ ∃ f, document r (String.ofList text) = .error f ∧ f.fault = .nestedTooDeep) := by
  have whole := reads_whole h hg
  simp only [document, Cursor.ofText, String.toList_ofList]
  split <;> rename_i outcome <;> rcases whole 0 with ⟨hP, _, done⟩ | ⟨hP, _, stopped⟩
  · cases done.symm.trans outcome
    exact .inl ⟨hP, rfl⟩
  · cases stopped.symm.trans outcome
  · cases done.symm.trans outcome
  · cases stopped.symm.trans outcome
    exact .inr ⟨hP, _, rfl, rfl⟩
  · cases done.symm.trans outcome
  · cases stopped.symm.trans outcome

end ThreadAffinity.Json
