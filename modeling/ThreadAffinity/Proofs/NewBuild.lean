import ThreadAffinity.Proofs.Recheck
import ThreadAffinity.Proofs.Runs

/-!
A new build forgets everything.

Checkers that share a build leave it a store and a listing, and keep nothing to themselves. A start
empties and opens the store, and empties the listing if its checker writes one. So whatever was done
before, what follows a start comes to the same as with checkers that are newly set up
(`Checker.start_forgets`). -/

namespace ThreadAffinity

namespace Checker

/-- Sets up checkers in one build, one after another. -/
def createAll : List Settings → Build → Except SetupError (List Checker × Build)
  | [], b => .ok ([], b)
  | s :: ss, b => do
    let step ← create s b
    let (cs, built) ← createAll ss step.build
    return (step.result :: cs, built)

/-- A checker is set up from its settings alone, and leaves the listing empty. -/
theorem create_eq (s : Settings) (b : Build) :
    create s b = s.policy.map fun policy =>
      let c : Checker := ⟨s, policy, s.exclusions⟩
      ⟨c, c.resetListing b, c.resetEvents b⟩ := by
  unfold create
  cases s.policy <;> rfl

/-- Checkers can be set up in every build if in one, and are the same in all of them. They do not
change whether the listing can be written. -/
theorem createAll_ok {ss : List Settings} {cs : List Checker} {b built : Build}
    (h : createAll ss b = .ok (cs, built)) :
    (built.listing = .unwritable ↔ b.listing = .unwritable) ∧
      ∀ b', ∃ built', createAll ss b' = .ok (cs, built') := by
  induction ss generalizing b cs with
  | nil =>
    obtain ⟨rfl, rfl⟩ : [] = cs ∧ b = built := by simpa [createAll] using h
    exact ⟨.rfl, fun b' => ⟨b', rfl⟩⟩
  | cons s ss ih =>
    simp only [createAll, create_eq] at h ⊢
    cases hpolicy : s.policy with
    | error e => simp [hpolicy, Except.map, bind, Except.bind] at h
    | ok policy =>
      simp only [hpolicy, Except.map, bind, Except.bind] at h ⊢
      split at h
      case h_1 => cases h
      case h_2 found hall =>
        obtain ⟨cs', built'⟩ := found
        obtain ⟨rfl, rfl⟩ : _ :: cs' = cs ∧ built' = built := by simpa [pure, Except.pure] using h
        obtain ⟨hlisting, hevery⟩ := ih hall
        refine ⟨hlisting.trans (resetListing_unwritable _ b), fun b' => ?_⟩
        obtain ⟨built', hbuilt'⟩ := hevery (resetListing ⟨s, policy, s.exclusions⟩ b')
        exact ⟨built', by rw [hbuilt']; rfl⟩

/-- A start by a checker that writes a listing leaves nothing of the build that it finds, except
that a listing which cannot be written stays so. -/
theorem start_congr {c : Checker} (hlists : c.lists = true) {b b' : Build}
    (h : b.listing = .unwritable ↔ b'.listing = .unwritable) : c.start b = c.start b' := by
  obtain ⟨hreset, hevents⟩ := ListingFile.reset_congr h
  simp only [start, resetListing, resetEvents, hlists, if_true, hreset, hevents, TagStore.restart]

/-- What follows a start has the same outcomes and leaves the same store in every build: both starts
leave an empty store, and nothing else is read. -/
theorem performAll_start_store (c : Checker) (b b' : Build) (following : List Command) :
    (Command.performAll b (.start c :: following)).map (fun s => (s.result, s.build.store)) =
      (Command.performAll b' (.start c :: following)).map fun s => (s.result, s.build.store) := by
  have hstore :
      ((Command.start c).perform b).build.store = ((Command.start c).perform b').build.store :=
    (c.start_store b).trans (c.start_store b').symm
  rw [Command.performAll, Command.performAll, List.map_cons, List.map_cons, hstore,
    Command.performAll_congr hstore]
  rfl

/-- After a start, commands come back with the same outcomes and leave the same store each time,
whatever checkers and commands there were before, as they do with the same checkers newly set up. If
the checker that makes the start writes a listing, the listing and the log are the same too. -/
theorem start_forgets (settings : List Settings) (checkers : List Checker) (b built : Build)
    (h : createAll settings b = .ok (checkers, built)) (file : ListingFile) (c : Checker)
    (history following : List Command) :
    ∃ fresh, createAll settings { listing := file } = .ok (checkers, fresh) ∧
      let after :=
        (Command.performAll built (history ++ .start c :: following)).drop history.length
      let anew := Command.performAll fresh (.start c :: following)
      after.map (fun s => (s.result, s.build.store)) =
          anew.map (fun s => (s.result, s.build.store)) ∧
        (c.lists = true → (file = .unwritable ↔ b.listing = .unwritable) → after = anew) := by
  obtain ⟨hbuilt, hevery⟩ := createAll_ok h
  obtain ⟨fresh, hfresh⟩ := hevery { listing := file }
  refine ⟨fresh, hfresh, ?_⟩
  dsimp only
  rw [Command.drop_performAll]
  refine ⟨performAll_start_store c _ _ following, fun hlists hfile => ?_⟩
  have hwritable :
      (Command.run built history).listing = .unwritable ↔ fresh.listing = .unwritable :=
    calc (Command.run built history).listing = .unwritable
      _ ↔ built.listing = .unwritable := Command.run_unwritable built history
      _ ↔ b.listing = .unwritable := hbuilt
      _ ↔ file = .unwritable := hfile.symm
      _ ↔ fresh.listing = .unwritable := (createAll_ok hfresh).1.symm
  rw [Command.performAll, Command.performAll, Command.perform, Command.perform,
    start_congr hlists hwritable]

/-- A checker that writes a listing. -/
def lister : Checker := { plain with settings := { listing := some "tags.txt" } }

/-- A build is checked with two checkers and ended, and a tag comes too late for it. None of that
shows in the next build, and the stale listing is gone. -/
theorem start_forgets_lister :
    let settings : List Settings := [lister.settings, {}]
    let history : List Command := [.check plain detour detourHost, .check lister detour detourHost,
      .finish plain, .publish ⟨"app.Job#run()"⟩ ⟨.fx, .explicit⟩]
    let following : List Command := [.check plain detour detourHost, .finish lister]
    ∃ built fresh,
      createAll settings { listing := .present "stale" } = .ok ([lister, plain], built) ∧
      createAll settings {} = .ok ([lister, plain], fresh) ∧
      (Command.run built history).store.tags.size = 2 ∧
      (Command.run built history).store.rejected = 1 ∧
      (Command.performAll built (history ++ .start lister :: following)).drop history.length =
        Command.performAll fresh (.start lister :: following) := by
  intro settings history following
  have h : createAll settings { listing := .present "stale" } =
      .ok ([lister, plain], ⟨{}, .present ""⟩) := rfl
  obtain ⟨fresh, hfresh, -, hall⟩ :=
    start_forgets settings _ _ _ h .missing lister history following
  exact ⟨_, fresh, h, hfresh, by decide, by decide, hall rfl (by decide)⟩

end Checker

end ThreadAffinity
