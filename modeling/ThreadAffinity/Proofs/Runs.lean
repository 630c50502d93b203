import ThreadAffinity.Command

/-!
Runs of commands.

A command's outcome and the store that it leaves depend on nothing but the store that it finds, and
so do those of a whole run (`Command.performAll_congr`). The listing is written and never read.
Whether it can be written does not change. -/

namespace ThreadAffinity

namespace ListingFile

@[simp] theorem reset_eq_unwritable {f : ListingFile} :
    f.reset = .unwritable ↔ f = .unwritable := by
  cases f <;> simp [reset]

@[simp] theorem append_eq_unwritable {f : ListingFile} {tags : TagMap} :
    f.append tags = .unwritable ↔ f = .unwritable := by
  cases f <;> simp [append]

/-- Two files that are both on paths that can be written, or both on paths that cannot, are the same
once they are emptied. -/
theorem reset_congr {f f' : ListingFile} (h : f = .unwritable ↔ f' = .unwritable) :
    f.reset = f'.reset ∧ f.resetEvents = f'.resetEvents := by
  cases f <;> cases f' <;> simp_all [reset, resetEvents]

end ListingFile

theorem Checker.resetListing_store (c : Checker) (b : Build) :
    (c.resetListing b).store = b.store := by
  unfold resetListing
  split <;> rfl

/-- A build starts with an open store without tags. -/
theorem Checker.start_store (c : Checker) (b : Build) : (c.start b).build.store = .empty :=
  c.resetListing_store _

theorem Checker.resetListing_unwritable (c : Checker) (b : Build) :
    (c.resetListing b).listing = .unwritable ↔ b.listing = .unwritable := by
  unfold resetListing
  split <;> simp

namespace Command

/-- The build after commands. -/
def run (b : Build) (cs : List Command) : Build := cs.foldl (fun b c => (c.perform b).build) b

/-- Commands are carried out on what those before them have left. -/
theorem performAll_append (b : Build) (cs ds : List Command) :
    performAll b (cs ++ ds) = performAll b cs ++ performAll (run b cs) ds := by
  induction cs generalizing b with
  | nil => rfl
  | cons c cs ih => exact congrArg (c.perform b :: ·) (ih _)

@[simp] theorem length_performAll (b : Build) (cs : List Command) :
    (performAll b cs).length = cs.length := by
  induction cs generalizing b with
  | nil => rfl
  | cons c cs ih => exact congrArg (· + 1) (ih _)

/-- The steps after the first ones. -/
theorem drop_performAll (b : Build) (cs ds : List Command) :
    (performAll b (cs ++ ds)).drop cs.length = performAll (run b cs) ds := by
  rw [performAll_append]
  exact List.drop_left' (length_performAll b cs)

/-- A command that finds the same store comes back with the same outcome and leaves the same
store. -/
theorem perform_congr {b b' : Build} (h : b.store = b'.store) (c : Command) :
    (c.perform b).result = (c.perform b').result ∧
      (c.perform b).build.store = (c.perform b').build.store := by
  obtain ⟨store, listing⟩ := b
  obtain ⟨store', listing'⟩ := b'
  obtain rfl : store = store' := h
  cases c with
  | start c => exact ⟨rfl, (c.start_store _).trans (c.start_store _).symm⟩
  | check c u host => exact ⟨rfl, rfl⟩
  | publish s t => exact ⟨rfl, rfl⟩
  | finish c => exact ⟨rfl, rfl⟩

theorem perform_unwritable (c : Command) (b : Build) :
    (c.perform b).build.listing = .unwritable ↔ b.listing = .unwritable := by
  cases c with
  | start c => exact c.resetListing_unwritable _
  | check c u host =>
    change (if c.lists then _ else b.listing) = _ ↔ _
    split <;> simp
  | publish s t => rfl
  | finish c => rfl

theorem run_unwritable (b : Build) (cs : List Command) :
    (run b cs).listing = .unwritable ↔ b.listing = .unwritable := by
  induction cs generalizing b with
  | nil => rfl
  | cons c cs ih => exact (ih _).trans (c.perform_unwritable b)

/-- Commands that find the same store come back with the same outcomes, and each leaves the same
store. -/
theorem performAll_congr {b b' : Build} (h : b.store = b'.store) (cs : List Command) :
    (performAll b cs).map (fun s => (s.result, s.build.store)) =
      (performAll b' cs).map fun s => (s.result, s.build.store) := by
  induction cs generalizing b b' with
  | nil => rfl
  | cons c cs ih =>
    obtain ⟨hresult, hstore⟩ := perform_congr h c
    rw [performAll, performAll, List.map_cons, List.map_cons, hresult, hstore, ih hstore]

end Command

end ThreadAffinity
