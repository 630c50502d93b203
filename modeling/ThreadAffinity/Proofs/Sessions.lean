import ThreadAffinity.Proofs.NewBuild

/-!
Sessions with one checker.

A host sets a checker up, and then it starts builds, has files checked and ends builds. If each step
of a second checker comes to what the first one's comes to, but for a difference that some view of
the outcomes makes up for, then so does a whole session from equal stores
(`Checker.session_of_create`). What becomes of a difference in the settings is thus a matter of
single steps. -/

namespace ThreadAffinity

/-- What a host does with its checker. -/
inductive SessionStep where
  | start
  | check (file : SourceUnit) (host : HostTable)
  | finish

/-- The step as a command to a checker. -/
def SessionStep.command (c : Checker) : SessionStep → Command
  | start => .start c
  | check u host => .check c u host
  | finish => .finish c

namespace Checker

variable {c c' : Checker}

/-- The steps of a session with a checker. -/
def session (c : Checker) (b : Build) (steps : List SessionStep) : List (Step Outcome) :=
  Command.performAll b (steps.map (·.command c))

/-- Sessions that find the same store come back with the same outcomes, and each leaves the same
store. -/
theorem session_congr {b b' : Build} (h : b.store = b'.store) (steps : List SessionStep) :
    (c.session b steps).map (fun s => (s.result, s.build.store)) =
      (c.session b' steps).map fun s => (s.result, s.build.store) :=
  Command.performAll_congr h _

/-- Every step of the second checker leaves the same build as the first one's, and has its outcome
seen through the view. -/
def StepsLike (view : Outcome → Outcome) (c' c : Checker) : Prop :=
  ∀ (step : SessionStep) (b : Build),
    ((step.command c').perform b).result = view ((step.command c).perform b).result ∧
      ((step.command c').perform b).build = ((step.command c).perform b).build

/-- The steps differ in no more than the checks do, if both checkers keep a listing or neither. -/
theorem StepsLike.of_check {view : Outcome → Outcome} (hlists : c'.lists = c.lists)
    (hdone : view .done = .done)
    (hresult : ∀ u host b,
      Outcome.checked (c'.check u host b).result = view (.checked (c.check u host b).result))
    (hbuild : ∀ u host b, (c'.check u host b).build = (c.check u host b).build) :
    StepsLike view c' c := by
  intro step b
  cases step with
  | start =>
    refine ⟨hdone.symm, ?_⟩
    change c'.resetListing _ = c.resetListing _
    rw [resetListing, hlists]
    rfl
  | check u host => exact ⟨hresult u host b, hbuild u host b⟩
  | finish => exact ⟨hdone.symm, rfl⟩

theorem StepsLike.session {view : Outcome → Outcome} (h : StepsLike view c' c)
    (steps : List SessionStep) : ∀ b : Build,
    (c'.session b steps).map (fun s => (s.result, s.build)) =
      (c.session b steps).map fun s => (view s.result, s.build) := by
  induction steps with
  | nil => exact fun _ => rfl
  | cons step steps ih =>
    intro b
    obtain ⟨hresult, hbuild⟩ := h step b
    have hrest := ih ((step.command c).perform b).build
    rw [Checker.session, Checker.session] at hrest ⊢
    simp only [List.map_cons, Command.performAll, hresult, hbuild, hrest]

/-! ### Setting the checkers up -/

/-- A checker that is set up has its settings, and has emptied the listing. -/
theorem of_create {s : Settings} {b : Build} {step : Step Checker} (h : create s b = .ok step) :
    step.result.settings = s ∧ step.result.exclusions = s.exclusions ∧
      step.build = step.result.resetListing b := by
  rw [create_eq] at h
  cases hpolicy : s.policy with
  | error e => simp [hpolicy, Except.map] at h
  | ok policy =>
    rw [hpolicy] at h
    cases h
    exact ⟨rfl, rfl, rfl⟩

section

variable {s s' : Settings} {b b' : Build} {first second : Step Checker}

theorem lists_of_create (h : create s b = .ok first) :
    first.result.lists = s.listing.isSome := by
  rw [lists, (of_create h).1]

theorem store_of_create (h : create s b = .ok first) : first.build.store = b.store := by
  rw [(of_create h).2.2]
  exact resetListing_store _ b

/-- A listing that is written is the same in both builds once the checkers are set up. -/
theorem build_of_create (h : create s b = .ok first) (h' : create s' b' = .ok second)
    (hstore : b.store = b'.store) (hfile : b.listing = .unwritable ↔ b'.listing = .unwritable)
    (hlists : s.listing.isSome = true) (hlists' : s'.listing.isSome = true) :
    second.build = first.build := by
  obtain ⟨-, -, hbuild⟩ := of_create h
  obtain ⟨-, -, hbuild'⟩ := of_create h'
  have hfirst : first.result.lists = true := (lists_of_create h).trans hlists
  have hsecond : second.result.lists = true := (lists_of_create h').trans hlists'
  rw [hbuild, hbuild', resetListing, resetListing, if_pos hfirst, if_pos hsecond, hstore,
    (ListingFile.reset_congr hfile).1]

/-- Two checkers whose steps come to the same but for the view are set up in builds with equal
stores. Then they go through the same session: each step leaves the same store, and the same listing
if one is written. -/
theorem session_of_create {view : Outcome → Outcome} (h : create s b = .ok first)
    (h' : create s' b' = .ok second) (hlike : StepsLike view second.result first.result)
    (hstore : b.store = b'.store) (hfile : b.listing = .unwritable ↔ b'.listing = .unwritable)
    (hlisting : s'.listing = s.listing) (steps : List SessionStep) :
    (second.result.session second.build steps).map (fun t => (t.result, t.build.store)) =
        (first.result.session first.build steps).map (fun t => (view t.result, t.build.store)) ∧
      (s.listing.isSome = true →
        (second.result.session second.build steps).map (fun t => t.build.listing) =
          (first.result.session first.build steps).map fun t => t.build.listing) := by
  have hsame := hlike.session steps first.build
  constructor
  · have hstores : second.build.store = first.build.store := by
      rw [store_of_create h, store_of_create h', hstore]
    have hview := congrArg (List.map fun e : Outcome × Build => (e.1, e.2.store)) hsame
    rw [List.map_map, List.map_map] at hview
    exact (session_congr hstores steps).trans hview
  · intro hlists
    have hview := congrArg (List.map fun e : Outcome × Build => e.2.listing) hsame
    rw [List.map_map, List.map_map] at hview
    rw [build_of_create h h' hstore hfile hlists (hlisting ▸ hlists)]
    exact hview

end

end Checker

end ThreadAffinity
