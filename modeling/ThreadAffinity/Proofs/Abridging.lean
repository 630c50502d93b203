import ThreadAffinity.Proofs.Json.Shapes
import ThreadAffinity.Source.Document

/-!
Abridged documents.

The document of a source file may be abridged. The entries of an object may come in another order,
and an entry that the object can do without may be left out if it holds its default, whatever
happens to other entries and to other objects. Which entries these are depends on the part of the
file that the object shows: a member may leave out an empty body, a lambda may not. -/

namespace ThreadAffinity

open Json

/-- The parts of a document. -/
inductive DocumentPart where
  /-- A name, a text, a number, a truth value, or a list of texts. -/
  | leaf
  | list (item : DocumentPart)
  | file
  | type
  | writtenTag
  | member
  /-- The object around the content of an expression. -/
  | expr
  | use
  | lambda
  | span
deriving DecidableEq, Repr

namespace DocumentPart

/-- The part under a key. -/
def under : DocumentPart → String → DocumentPart
  | file, "types" => list type
  | type, "members" => list member
  | type, "tag" => writtenTag
  | type, "span" => span
  | writtenTag, "span" => span
  | member, "tag" => writtenTag
  | member, "body" => list expr
  | member, "span" => span
  | expr, "AnonymousClass" => type
  | expr, "Block" => list expr
  | expr, "Lambda" => lambda
  | expr, _ => use
  | use, "span" => span
  | lambda, "body" => list expr
  | lambda, "span" => span
  | _, _ => leaf

/-- The default of an entry that may be left out. -/
def default? : DocumentPart → String → Option Value
  | file, "package" => some (.string "")
  | type, "tag" => some .null
  | type, "members" => some (.list [])
  | type, "span" => some (Span.toValue {})
  | writtenTag, "ignore_parent" => some (.boolean false)
  | writtenTag, "span" => some (Span.toValue {})
  | member, "visibility" => some (.string "Public")
  | member, "tag" => some .null
  | member, "overrides" => some (.list [])
  | member, "body" => some (.list [])
  | member, "span" => some (Span.toValue {})
  | use, "target" => some .null
  | use, "context" => some .null
  | lambda, "context" => some .null
  | _, _ => none

end DocumentPart

mutual

/-- The second value is the first one abridged, which is a part of this sort. -/
inductive Abridged : DocumentPart → Value → Value → Prop
  | same {p v} : Abridged p v v
  | list {p vs ws} (h : AbridgedItems p vs ws) : Abridged (.list p) (.list vs) (.list ws)
  | object {p es fs gs} (h : AbridgedEntries p es fs) (order : fs.Perm gs) :
      Abridged p (.object es) (.object gs)

/-- The items of a list, each of them abridged. -/
inductive AbridgedItems : DocumentPart → List Value → List Value → Prop
  | nil {p} : AbridgedItems p [] []
  | cons {p v w vs ws} (h : Abridged p v w) (hs : AbridgedItems p vs ws) :
      AbridgedItems p (v :: vs) (w :: ws)

/-- The entries of an object, each of them abridged or left out. -/
inductive AbridgedEntries : DocumentPart → List (String × Value) → List (String × Value) → Prop
  | nil {p} : AbridgedEntries p [] []
  | keep {p key v w es fs} (h : Abridged (p.under key) v w) (hs : AbridgedEntries p es fs) :
      AbridgedEntries p ((key, v) :: es) ((key, w) :: fs)
  | leaveOut {p key v es fs} (h : p.default? key = some v) (hs : AbridgedEntries p es fs) :
      AbridgedEntries p ((key, v) :: es) fs

end

variable {p : DocumentPart} {v w : Value} {vs : List Value} {es fs gs : List (String × Value)}

/-! ### What becomes of a value -/

namespace Abridged

/-- A scalar, or a list whose items are no parts of their own, stays as it is. -/
theorem eq_of_leaf (h : Abridged p v w) (hp : ∀ q, p ≠ .list q) (hv : ∀ es, v ≠ .object es) :
    w = v := by
  cases h with
  | same => rfl
  | list h => exact absurd rfl (hp _)
  | object h order => exact absurd rfl (hv _)

theorem items_same : ∀ vs : List Value, AbridgedItems p vs vs
  | [] => .nil
  | _ :: vs => .cons .same (items_same vs)

theorem entries_same : ∀ es : List (String × Value), AbridgedEntries p es es
  | [] => .nil
  | _ :: es => .keep .same (entries_same es)

/-- A list becomes a list, item by item. -/
theorem of_list (h : Abridged (.list p) (.list vs) w) :
    ∃ ws, w = .list ws ∧ AbridgedItems p vs ws := by
  cases h with
  | same => exact ⟨vs, rfl, items_same vs⟩
  | list h => exact ⟨_, rfl, h⟩

/-- An object becomes an object, entry by entry and then in some order. -/
theorem of_object (h : Abridged p (.object es) w) :
    ∃ fs gs, w = .object gs ∧ AbridgedEntries p es fs ∧ fs.Perm gs := by
  cases h with
  | same => exact ⟨es, es, rfl, entries_same es, .rfl⟩
  | object h order => exact ⟨_, _, rfl, h, order⟩

/-- An expression keeps its case. -/
theorem of_case {key : String} (h : Abridged .expr (.object [(key, v)]) w) :
    ∃ v', w = .object [(key, v')] ∧ Abridged (DocumentPart.expr.under key) v v' := by
  obtain ⟨fs, gs, rfl, hfs, order⟩ := h.of_object
  cases hfs with
  | keep hv hs =>
    cases hs
    exact ⟨_, by rw [order.singleton_eq], hv⟩
  | leaveOut hdefault _ => cases hdefault

end Abridged

/-! ### What an abridged object shows -/

/-- The slot is for the entry: it shows whatever the value may be abridged to, and it has its
default if the entry may be left out. -/
structure Json.Slot.Fits (p : DocumentPart) (s : Slot) (e : String × Value) : Prop where
  key : s.key = e.1
  shown : ∀ w, Abridged (p.under e.1) e.2 w → s.shown w
  isDefault : p.default? e.1 = some e.2 → s.isDefault

namespace AbridgedEntries

variable {slots : List Slot}

theorem keys (h : AbridgedEntries p es fs) : (fs.map Prod.fst).Sublist (es.map Prod.fst) := by
  induction es generalizing fs with
  | nil => cases h; exact .slnil
  | cons e es ih =>
    cases h with
    | keep _ hs => exact (ih hs).cons_cons _
    | leaveOut _ hs => exact (ih hs).cons _

theorem exists_slot (h : AbridgedEntries p es fs) (hslots : List.Forall₂ (Slot.Fits p) slots es) :
    ∀ e ∈ fs, ∃ s ∈ slots, s.key = e.1 ∧ s.shown e.2 := by
  induction hslots generalizing fs with
  | nil => cases h; exact fun _ he => absurd he List.not_mem_nil
  | cons hfits _ ih =>
    intro e he
    cases h with
    | keep hv hs =>
      rcases List.mem_cons.1 he with rfl | he
      · exact ⟨_, .head _, hfits.key, hfits.shown _ hv⟩
      · obtain ⟨s, hs, hshown⟩ := ih hs e he
        exact ⟨s, .tail _ hs, hshown⟩
    | leaveOut _ hs =>
      obtain ⟨s, hs, hshown⟩ := ih hs e he
      exact ⟨s, .tail _ hs, hshown⟩

theorem leftOut (h : AbridgedEntries p es fs) (hslots : List.Forall₂ (Slot.Fits p) slots es) :
    ∀ s ∈ slots, s.key ∈ fs.map Prod.fst ∨ s.isDefault := by
  induction hslots generalizing fs with
  | nil => exact fun _ hs => absurd hs List.not_mem_nil
  | cons hfits _ ih =>
    intro s hs
    cases h with
    | keep _ hrest =>
      rcases List.mem_cons.1 hs with rfl | hs
      · exact .inl (hfits.key ▸ .head _)
      · exact (ih hrest s hs).imp_left (.tail _)
    | leaveOut hdefault hrest =>
      rcases List.mem_cons.1 hs with rfl | hs
      · exact .inr (hfits.isDefault hdefault)
      · exact ih hrest s hs

/-- An abridged object shows the same fields as the whole one. -/
theorem shows (h : AbridgedEntries p es fs) (order : fs.Perm gs)
    (hslots : List.Forall₂ (Slot.Fits p) slots es) (hkeys : (es.map Prod.fst).Nodup) :
    Shows slots gs where
  keys := (order.map Prod.fst).nodup_iff.1 (h.keys.nodup hkeys)
  shown e he := h.exists_slot hslots e (order.mem_iff.2 he)
  leftOut s hs := (h.leftOut hslots s hs).imp_left (order.map Prod.fst).mem_iff.1

end AbridgedEntries

/-! ### Nesting -/

theorem Json.entriesDepth_perm (h : es.Perm fs) : entriesDepth es = entriesDepth fs := by
  induction h with
  | nil => rfl
  | cons e _ ih => rw [entriesDepth, entriesDepth, ih]
  | swap e f es => simp only [entriesDepth, Nat.max_left_comm]
  | trans _ _ ih₁ ih₂ => exact ih₁.trans ih₂

mutual

/-- An abridged value nests no deeper than the whole one. -/
theorem Abridged.depth_le : ∀ {p : DocumentPart} {v w : Value}, Abridged p v w →
    w.depth ≤ v.depth
  | _, _, _, .same => Nat.le_refl _
  | _, _, _, .list h => Nat.succ_le_succ h.depth_le
  | _, _, _, .object h order => Nat.succ_le_succ (entriesDepth_perm order ▸ h.depth_le)

theorem AbridgedItems.depth_le : ∀ {p : DocumentPart} {vs ws : List Value},
    AbridgedItems p vs ws → itemsDepth ws ≤ itemsDepth vs
  | _, _, _, .nil => Nat.le_refl _
  | _, _, _, .cons h hs => by
    have hfirst := h.depth_le
    have hothers := hs.depth_le
    simp only [itemsDepth]
    omega

theorem AbridgedEntries.depth_le : ∀ {p : DocumentPart} {es fs : List (String × Value)},
    AbridgedEntries p es fs → entriesDepth fs ≤ entriesDepth es
  | _, _, _, .nil => Nat.le_refl _
  | _, _, _, .keep h hs => by
    have hfirst := h.depth_le
    have hothers := hs.depth_le
    simp only [entriesDepth]
    omega
  | _, _, _, .leaveOut _ hs => Nat.le_trans hs.depth_le (Nat.le_max_right _ _)

end

end ThreadAffinity
