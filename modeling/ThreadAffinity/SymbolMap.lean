import ThreadAffinity.Symbol

/-!
Finite maps from symbols, kept in symbol order.

The entries are a strictly ascending list, so a map has one representation and its listing is sorted
by construction. `put` records a value whether or not the symbol has one; `putNew` keeps the first
value that a symbol was given. -/

namespace ThreadAffinity

/-- The list with the value of one symbol set, every entry in its place. -/
def putEntry {α : Type} (s : Symbol) (v : α) : List (Symbol × α) → List (Symbol × α)
  | [] => [(s, v)]
  | e :: es =>
    if s < e.1 then (s, v) :: e :: es
    else if e.1 = s then (s, v) :: es
    else e :: putEntry s v es

/-- The value of the first entry of a symbol. -/
def findEntry {α : Type} (s : Symbol) : List (Symbol × α) → Option α
  | [] => none
  | e :: es => if e.1 = s then some e.2 else findEntry s es

theorem mem_putEntry {α : Type} {s : Symbol} {v : α} {e : Symbol × α} :
    ∀ {es : List (Symbol × α)}, e ∈ putEntry s v es → e = (s, v) ∨ e ∈ es
  | [], h => by simpa [putEntry] using h
  | d :: ds, h => by
    unfold putEntry at h
    split at h
    · simpa using h
    · split at h
      · rcases List.mem_cons.1 h with h | h
        · exact Or.inl h
        · exact Or.inr (List.mem_cons_of_mem _ h)
      · rcases List.mem_cons.1 h with h | h
        · exact Or.inr (h ▸ List.mem_cons_self)
        · exact (mem_putEntry h).imp id (List.mem_cons_of_mem _)

theorem pairwise_putEntry {α : Type} (s : Symbol) (v : α) :
    ∀ {es : List (Symbol × α)}, es.Pairwise (·.1 < ·.1) → (putEntry s v es).Pairwise (·.1 < ·.1)
  | [], _ => by simp [putEntry]
  | d :: ds, h => by
    have hd := List.pairwise_cons.1 h
    unfold putEntry
    split
    case isTrue hlt =>
      refine List.pairwise_cons.2 ⟨fun e he => ?_, h⟩
      rcases List.mem_cons.1 he with rfl | he
      · exact hlt
      · exact Symbol.lt_trans hlt (hd.1 e he)
    case isFalse hlt =>
      split
      case isTrue heq => exact List.pairwise_cons.2 ⟨fun e he => heq ▸ hd.1 e he, hd.2⟩
      case isFalse hne =>
        refine List.pairwise_cons.2 ⟨fun e he => ?_, pairwise_putEntry s v hd.2⟩
        rcases mem_putEntry he with rfl | he
        · exact (Symbol.lt_or_gt_of_ne hne).resolve_right hlt
        · exact hd.1 e he

/-- A map from symbols whose entries are listed in strictly ascending order. -/
structure SymbolMap (α : Type) where
  entries : List (Symbol × α) := []
  ascending : entries.Pairwise (·.1 < ·.1) := by exact List.Pairwise.nil
deriving DecidableEq

namespace SymbolMap

variable {α : Type}

/-- The map without entries. -/
def empty : SymbolMap α := {}

instance : Inhabited (SymbolMap α) := ⟨empty⟩

/-- The value of a symbol, if it has one. -/
def get? (m : SymbolMap α) (s : Symbol) : Option α := findEntry s m.entries

/-- Whether the symbol has a value. -/
def contains (m : SymbolMap α) (s : Symbol) : Bool := (m.get? s).isSome

/-- The number of symbols with a value. -/
def size (m : SymbolMap α) : Nat := m.entries.length

/-- Whether no symbol has a value. -/
def isEmpty (m : SymbolMap α) : Bool := m.entries.isEmpty

/-- The symbols with a value, in ascending order. -/
def keys (m : SymbolMap α) : List Symbol := m.entries.map (·.1)

/-- Gives a symbol a value in place of any earlier one. -/
def put (m : SymbolMap α) (s : Symbol) (v : α) : SymbolMap α :=
  ⟨putEntry s v m.entries, pairwise_putEntry s v m.ascending⟩

/-- Gives a symbol a value unless it has one already. -/
def putNew (m : SymbolMap α) (s : Symbol) (v : α) : SymbolMap α :=
  if m.contains s then m else m.put s v

/-- The map of a list of entries, later ones in place of earlier ones. -/
def ofList (es : List (Symbol × α)) : SymbolMap α := es.foldl (fun m e => m.put e.1 e.2) empty

/-- The map of a list of entries, earlier ones before later ones. -/
def ofListNew (es : List (Symbol × α)) : SymbolMap α := es.foldl (fun m e => m.putNew e.1 e.2) empty

/-! ### What a look-up sees -/

theorem findEntry_putEntry (s t : Symbol) (v : α) :
    ∀ es : List (Symbol × α),
      findEntry t (putEntry s v es) = if t = s then some v else findEntry t es
  | [] => by simp [putEntry, findEntry, eq_comm]
  | e :: es => by
    have ih := findEntry_putEntry s t v es
    grind [putEntry, findEntry]

@[simp]
theorem get?_empty (t : Symbol) : (empty : SymbolMap α).get? t = none := rfl

@[simp]
theorem get?_put (m : SymbolMap α) (s t : Symbol) (v : α) :
    (m.put s v).get? t = if t = s then some v else m.get? t :=
  findEntry_putEntry s t v m.entries

theorem get?_putNew (m : SymbolMap α) (s t : Symbol) (v : α) :
    (m.putNew s v).get? t = if t = s ∧ m.get? s = none then some v else m.get? t := by
  unfold putNew contains
  cases h : m.get? s <;> by_cases hts : t = s <;> simp_all

end SymbolMap

end ThreadAffinity
