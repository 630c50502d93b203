import Mathlib.Data.List.Perm.Subperm
import ThreadAffinity.Proofs.SourceDocument
import ThreadAffinity.Settings.Document

/-!
Documents of settings are read back.

Any of the four fields may stand in a document, in any order. A field that stands there is taken
from the document, and the others are as in settings that nobody touched. Such a document has three
brackets around each other at most, so the nesting limit never gets in the way. -/

namespace ThreadAffinity

open Json

variable {room : Nat}

theorem decodes_readTexts (ts : List String) :
    Decodes (readTexts room) room (.list (ts.map .string)) ts := by
  rcases room with _ | room
  · exact decodes_list_full
  · exact decodes_list_map (decodes_text _) ts

namespace Settings

theorem decodes_readBridge (b : Tag × Tag) : Decodes (readBridge room) room (bridgeValue b) b := by
  rcases room with _ | room
  · exact decodes_pair_full
  · exact decodes_pair (b.1.decodes _ rfl) (b.2.decodes _ rfl)

theorem decodes_readBridges (bs : List (Tag × Tag)) :
    Decodes (readBridges room) room (.list (bs.map bridgeValue)) bs := by
  rcases room with _ | room
  · exact decodes_list_full
  · exact decodes_list_map decodes_readBridge bs

theorem decodes_listing (path : Option String) :
    Decodes (optional (text "path string")) room (orNull .string path) path := by
  cases path with
  | none => exact decodes_optional_none
  | some path => exact decodes_optional_some (decodes_text _ path) nofun

/-- The entries of the object that settings are written as (`toValue_eq`). -/
def entries (s : Settings) : List (String × Value) :=
  [("ignore_packages", .list (s.ignored.map .string)),
    ("bridges", .list (s.bridges.map bridgeValue)), ("dump_path", orNull .string s.listing),
    ("report_unannotated", .boolean s.adviseUnannotated)]

theorem toValue_eq (s : Settings) : s.toValue = .object s.entries := rfl

/-- The settings with only the fields of these keys. The others are as in settings that nobody
touched. -/
def only (s : Settings) (keys : List String) : Settings :=
  let untouched : Settings := {}
  { ignored := if "ignore_packages" ∈ keys then s.ignored else untouched.ignored
    bridges := if "bridges" ∈ keys then s.bridges else untouched.bridges
    listing := if "dump_path" ∈ keys then s.listing else untouched.listing
    adviseUnannotated :=
      if "report_unannotated" ∈ keys then s.adviseUnannotated else untouched.adviseUnannotated }

theorem only_congr (s : Settings) {keys keys' : List String} (h : ∀ k, k ∈ keys ↔ k ∈ keys') :
    s.only keys = s.only keys' := by
  simp only [only, h]

theorem only_keys (s : Settings) : s.only (s.entries.map Prod.fst) = s := by
  simp [only, entries]

/-- An entry fills the field of its key. -/
theorem fills (s : Settings) :
    ∀ e ∈ s.entries, Fills (fields room) room s.only e.1 e.2 := by
  simp only [entries, List.forall_mem_cons]
  refine ⟨?_, ?_, ?_, ?_, by simp⟩
  · exact .of_decodes rfl (decodes_readTexts _) fun seen => by simp [only]
  · exact .of_decodes rfl (decodes_readBridges _) fun seen => by simp [only]
  · exact .of_decodes rfl (decodes_listing _) fun seen => by simp [only]
  · exact .of_decodes rfl (decodes_flag _) fun seen => by simp [only]

theorem decodes_only (s : Settings) {es : List (String × Value)} (hes : es.Subperm s.entries) :
    Decodes (read (room + 1)) (room + 1) (.object es) (s.only (es.map Prod.fst)) := by
  have hkeys : (es.map Prod.fst).Nodup := by
    obtain ⟨fs, hperm, hsublist⟩ := hes
    have hnodup : (s.entries.map Prod.fst).Nodup := by simp [entries]
    exact (hperm.map Prod.fst).nodup_iff.1 (hnodup.sublist (hsublist.map Prod.fst))
  have hseen : s.only (es.map Prod.fst).reverse = s.only (es.map Prod.fst) :=
    s.only_congr fun _ => List.mem_reverse
  have hblank : s.only [] = {} := by simp [only]
  rw [read, ← hblank]
  exact decodes_record (fun e he => s.fills e (hes.subset he)) hkeys (congrArg Except.ok hseen)

/-- Settings nest three deep. -/
theorem depth_le (s : Settings) {es : List (String × Value)} (hes : es.Subperm s.entries) :
    (Value.object es).depth ≤ 3 := by
  have hpackages : ∀ v ∈ s.ignored.map Value.string, v.depth ≤ 1 :=
    List.forall_mem_map.2 fun _ _ => Nat.zero_le 1
  have hbridges : ∀ v ∈ s.bridges.map bridgeValue, v.depth ≤ 1 :=
    List.forall_mem_map.2 fun _ _ => Nat.le_refl 1
  have hlisting : (orNull .string s.listing).depth ≤ 2 := by cases s.listing <;> exact Nat.zero_le 2
  have hall : ∀ e ∈ s.entries, e.2.depth ≤ 2 := by
    simp only [entries, List.forall_mem_cons]
    exact ⟨Nat.succ_le_succ (itemsDepth_le_iff.2 hpackages),
      Nat.succ_le_succ (itemsDepth_le_iff.2 hbridges), hlisting, Nat.zero_le 2, nofun⟩
  exact Nat.succ_le_succ (entriesDepth_le_iff.2 fun e he => hall e (hes.subset he))

/-- Settings are read back from what they are written as. A document with some of the fields gives
those fields, and leaves the others as they are in settings that nobody touched. -/
theorem ofText_only (s : Settings) :
    s.toValue = .object s.entries ∧ Settings.ofText s.toText = .ok s ∧
    ∀ es text, es.Subperm s.entries → DocumentOf (.object es) text →
      Settings.ofText (String.ofList text) = .ok (s.only (es.map Prod.fst)) := by
  have partly : ∀ es text, es.Subperm s.entries → DocumentOf (.object es) text →
      Settings.ofText (String.ofList text) = .ok (s.only (es.map Prod.fst)) := by
    intro es text hes htext
    have fits : (Value.object es).depth ≤ nestingLimit := Nat.le_trans (s.depth_le hes) (by decide)
    rcases (s.decodes_only hes).document htext with ⟨-, read⟩ | ⟨deep, -⟩
    · exact congrArg (Except.mapError SetupError.document) read
    · exact absurd fits (Nat.not_le.2 deep)
  refine ⟨s.toValue_eq, ?_, partly⟩
  have written : DocumentOf (.object s.entries) s.toText.toList := documentOf_text s.toValue
  have whole := partly s.entries s.toText.toList (.refl _) written
  rwa [String.ofList_toList, only_keys] at whole

/-- No bridges are something else than bridges that are left out. -/
theorem ofText_only_bridgeless :
    Settings.ofText (Value.object
      [("dump_path", .string "out/tags.txt"), ("bridges", .list [])]).compactText =
        .ok { bridges := [], listing := some "out/tags.txt" } ∧
    Settings.ofText (Value.object [("dump_path", .string "out/tags.txt")]).compactText =
        .ok { bridges := [(.fxPlatform, .fx)], listing := some "out/tags.txt" } := by
  have partly := (ofText_only ⟨["org.vendor"], [], some "out/tags.txt", false⟩).2.2
  have bridges : [("bridges", .list []), ("dump_path", .string "out/tags.txt")].Sublist
      (entries ⟨["org.vendor"], [], some "out/tags.txt", false⟩) :=
    .cons _ (.cons_cons _ (.cons_cons _ (.cons _ .slnil)))
  have listing : [("dump_path", .string "out/tags.txt")].Sublist
      (entries ⟨["org.vendor"], [], some "out/tags.txt", false⟩) :=
    .cons _ (.cons _ (.cons_cons _ (.cons _ .slnil)))
  exact ⟨partly _ _ ⟨_, .swap _ _ _, bridges⟩ (documentOf_write Layout.compact_blank _),
    partly _ _ listing.subperm (documentOf_write Layout.compact_blank _)⟩

end Settings

end ThreadAffinity
