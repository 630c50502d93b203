import Mathlib.Data.List.DropRight
import ThreadAffinity.Proofs.Sessions

/-!
The tag listing is a record, and nothing more.

A host sets checkers up, lets them take their steps, and publishes tags by hand. If all its checkers
write the listing, whatever stores they work with, the file has the lines of every file checked since
it was emptied, block by block, and each block has one line for each member
(`Workplace.listing_run`). Nothing reads the file: work with checkers that write no listing takes the
same course, whatever the file is (`Workplace.run_unlisted`). -/

namespace ThreadAffinity

/-! ### One block -/

/-- What a line says of a symbol and its tag. -/
def listingLine (l : Symbol × Tag) : String := l.1.text ++ " " ++ l.2.name

/-- The text has exactly one line for each symbol of the table, with its tag, and the symbols are in
strictly ascending order. If no symbol has a line break in it, these lines are what one gets when the
text is broken into lines. -/
def TagMap.ListedBy (tags : TagMap) (text : String) : Prop :=
  ∃ lines : List (Symbol × Tag), lines.Pairwise (·.1 < ·.1) ∧
    (∀ s t, (s, t) ∈ lines ↔ (tags.get? s).map SourcedTag.tag = some t) ∧
    text = String.join (lines.map (listingLine · ++ "\n")) ∧
    ((∀ l ∈ lines, '\n' ∉ l.1.text.toList) →
      text.toList.splitOn '\n' = lines.map (fun l => (listingLine l).toList) ++ [[]])

theorem not_mem_listingLine {l : Symbol × Tag} (h : '\n' ∉ l.1.text.toList) :
    '\n' ∉ (listingLine l).toList := by
  have hname : '\n' ∉ l.2.name.toList := by cases l.2 <;> decide
  simp [listingLine, h, hname]

theorem splitOn_lines (lines : List (Symbol × Tag)) (h : ∀ l ∈ lines, '\n' ∉ l.1.text.toList) :
    (String.join (lines.map (listingLine · ++ "\n"))).toList.splitOn '\n' =
      lines.map (fun l => (listingLine l).toList) ++ [[]] := by
  induction lines with
  | nil => rfl
  | cons l lines ih =>
    have hl := not_mem_listingLine (h l List.mem_cons_self)
    have hrest := ih fun l' hl' => h l' (List.mem_cons_of_mem _ hl')
    rw [List.map_cons, String.join_cons, String.toList_append, String.toList_append,
      List.append_assoc, List.map_cons, List.cons_append, ← hrest]
    exact List.splitOn_append_cons_self_of_not_mem hl _

theorem TagMap.listedBy_listing (tags : TagMap) : tags.ListedBy tags.listing := by
  have htext : tags.listing =
      String.join ((tags.entries.map fun e => (e.1, e.2.tag)).map (listingLine · ++ "\n")) := by
    rw [TagMap.listing, List.map_map]
    rfl
  refine ⟨tags.entries.map fun e => (e.1, e.2.tag), ?_, fun s t => ?_, htext, fun h => ?_⟩
  · exact List.pairwise_map.2 tags.ascending
  · rw [List.mem_map, Option.map_eq_some_iff]
    constructor
    · rintro ⟨⟨_, e⟩, he, heq⟩
      obtain ⟨rfl, rfl⟩ := Prod.mk.inj heq
      exact ⟨e, SymbolMap.mem_entries_iff.1 he, rfl⟩
    · rintro ⟨e, he, rfl⟩
      exact ⟨(s, e), SymbolMap.mem_entries_iff.2 he, rfl⟩
  · rw [htext]
    exact splitOn_lines _ h

/-! ### A host and its checkers -/

/-- The listing, the stores by number, and the checkers that are set up, each with the number of the
store that it works with. -/
@[ext]
structure Workplace where
  listing : ListingFile
  stores : Nat → TagStore
  checkers : List (Nat × Checker) := []

/-- What a host does. -/
inductive Deed where
  /-- It sets a checker up to work with a store. -/
  | create (settings : Settings) (store : Nat)
  /-- It has a checker take a step. Checkers are counted in the order in which they are set up. -/
  | drive (checker : Nat) (step : SessionStep)
  /-- It publishes a tag by hand. -/
  | publish (store : Nat) (symbol : Symbol) (tag : SourcedTag)

/-- What comes of a deed. -/
inductive DeedOutcome where
  | created
  | refused (error : SetupError)
  | came (outcome : Outcome)
  /-- There is no such checker. -/
  | absent

/-- A deed, what came of it, and the stores afterwards. -/
structure DeedRecord where
  deed : Deed
  outcome : DeedOutcome
  stores : Nat → TagStore

namespace Workplace

/-- The build that those who work with a store take part in. -/
def build (w : Workplace) (n : Nat) : Build := ⟨w.stores n, w.listing⟩

/-- The workplace after a step that has left a build in this state. -/
def after (w : Workplace) (n : Nat) (b : Build) : Workplace :=
  { w with listing := b.listing, stores := Function.update w.stores n b.store }

/-- What comes of a command, and the workplace afterwards. -/
def command (w : Workplace) (n : Nat) (c : Command) : DeedOutcome × Workplace :=
  (.came (c.perform (w.build n)).result, w.after n (c.perform (w.build n)).build)

/-- What comes of a deed, and the workplace afterwards. -/
def perform (w : Workplace) : Deed → DeedOutcome × Workplace
  | .create s n =>
    match Checker.create s (w.build n) with
    | .ok step =>
      (.created, { w.after n step.build with checkers := w.checkers ++ [(n, step.result)] })
    | .error e => (.refused e, w)
  | .drive i step =>
    match w.checkers[i]? with
    | some (n, c) => w.command n (step.command c)
    | none => (.absent, w)
  | .publish n s t => w.command n (.publish s t)

section Perform

variable {w : Workplace}

theorem perform_created {s : Settings} {n : Nat} {step : Step Checker}
    (h : Checker.create s (w.build n) = .ok step) :
    w.perform (.create s n) =
      (.created, { w.after n step.build with checkers := w.checkers ++ [(n, step.result)] }) := by
  simp only [perform, h]

theorem perform_refused {s : Settings} {n : Nat} {e : SetupError}
    (h : Checker.create s (w.build n) = .error e) : w.perform (.create s n) = (.refused e, w) := by
  simp only [perform, h]

theorem perform_drive {i n : Nat} {c : Checker} (h : w.checkers[i]? = some (n, c))
    (step : SessionStep) : w.perform (.drive i step) = w.command n (step.command c) := by
  simp only [perform, h]

theorem perform_absent {i : Nat} (h : w.checkers[i]? = none) (step : SessionStep) :
    w.perform (.drive i step) = (.absent, w) := by
  simp only [perform, h]

end Perform

/-- The record of a deed. -/
def record (w : Workplace) (d : Deed) : DeedRecord :=
  ⟨d, (w.perform d).1, (w.perform d).2.stores⟩

/-- The workplace after deeds, and their records. -/
def run (w : Workplace) (deeds : List Deed) : Workplace × List DeedRecord :=
  deeds.foldl (fun (w, rs) d => ((w.perform d).2, rs ++ [w.record d])) (w, [])

theorem run_concat (w : Workplace) (deeds : List Deed) (d : Deed) :
    w.run (deeds ++ [d]) =
      (((w.run deeds).1.perform d).2, (w.run deeds).2 ++ [(w.run deeds).1.record d]) := by
  rw [run, List.foldl_concat]
  rfl

end Workplace

namespace DeedRecord

/-- Whether a checker was set up or started a build. -/
def resets (r : DeedRecord) : Bool :=
  match r.deed, r.outcome with
  | .create .., .created => true
  | .drive _ .start, .came _ => true
  | _, _ => false

/-- The tags in the report of a checked file. -/
def tags? (r : DeedRecord) : Option TagMap :=
  match r.outcome with
  | .came (.checked found) => some found.tags
  | _ => none

end DeedRecord

/-- The records since a checker was last set up or started a build. -/
def sinceReset (rs : List DeedRecord) : List DeedRecord := rs.rtakeWhile (!·.resets)

/-- The tags of the files that were checked, in order. -/
def tablesIn (rs : List DeedRecord) : List TagMap := rs.filterMap DeedRecord.tags?

/-- The blocks of the files that were checked since the listing was last emptied. -/
def listingOf (rs : List DeedRecord) : String :=
  String.join ((tablesIn (sinceReset rs)).map TagMap.listing)

theorem listingOf_reset {rs : List DeedRecord} {r : DeedRecord} (h : r.resets = true) :
    listingOf (rs ++ [r]) = "" := by
  rw [listingOf, sinceReset, List.rtakeWhile_concat_neg _ _ _ (by simp [h])]
  rfl

theorem listingOf_other {rs : List DeedRecord} {r : DeedRecord} (h : r.resets = false) :
    listingOf (rs ++ [r]) = listingOf rs ++ (r.tags?.map TagMap.listing).getD "" := by
  rw [listingOf, sinceReset, List.rtakeWhile_concat_pos _ _ _ (by simp [h]), tablesIn,
    List.filterMap_append, List.map_append, String.join_append, listingOf, sinceReset, tablesIn]
  cases htags : r.tags? <;> simp [htags]

namespace Workplace

/-! ### What the listing has -/

/-- All checkers write the listing. It is as it was found until a checker is set up, and then it has
the blocks that the records tell of. -/
structure Recorded (file : ListingFile) (w : Workplace) (rs : List DeedRecord) : Prop where
  lists : ∀ p ∈ w.checkers, p.2.lists = true
  untouched : w.checkers = [] → w.listing = file
  kept : w.checkers ≠ [] → w.listing = .present (listingOf rs)

section Recorded

variable {file : ListingFile} {w w' : Workplace} {rs : List DeedRecord} {r : DeedRecord}

theorem Recorded.writable (h : w.Recorded file rs) (hfile : file ≠ .unwritable) :
    w.listing ≠ .unwritable := by
  by_cases hw : w.checkers = []
  · rwa [h.untouched hw]
  · rw [h.kept hw]
    exact nofun

/-- What becomes of the listing when it is emptied. -/
theorem Recorded.emptied (hlists : ∀ p ∈ w.checkers, p.2.lists = true) (hw : w.checkers ≠ [])
    (hlisting : w.listing = .present "") (hr : r.resets = true) : w.Recorded file (rs ++ [r]) :=
  ⟨hlists, fun h => absurd h hw, fun _ => by rw [hlisting, listingOf_reset hr]⟩

/-- What becomes of the listing when nobody writes to it. -/
theorem Recorded.left (h : w.Recorded file rs) (hcheckers : w'.checkers = w.checkers)
    (hlisting : w'.listing = w.listing) (hr : r.resets = false) (ht : r.tags? = none) :
    w'.Recorded file (rs ++ [r]) := by
  refine ⟨hcheckers ▸ h.lists, fun hw => ?_, fun hw => ?_⟩
  · rw [hlisting, h.untouched (hcheckers ▸ hw)]
  · rw [hlisting, h.kept (hcheckers ▸ hw), listingOf_other hr, ht]
    exact congrArg ListingFile.present String.append_empty.symm

theorem resetListing_present {c : Checker} {b : Build} (hlists : c.lists = true)
    (hb : b.listing ≠ .unwritable) : (c.resetListing b).listing = .present "" := by
  rw [Checker.resetListing, if_pos hlists]
  cases hlisting : b.listing with
  | unwritable => exact absurd hlisting hb
  | missing => rfl
  | present text => rfl

variable (h : w.Recorded file rs) (hfile : file ≠ .unwritable)

include h

theorem recorded_publish (n : Nat) (s : Symbol) (t : SourcedTag) :
    (w.perform (.publish n s t)).2.Recorded file (rs ++ [w.record (.publish n s t)]) :=
  h.left rfl rfl rfl rfl

include hfile

theorem recorded_create (s : Settings) (n : Nat) (hs : s.listing.isSome = true) :
    (w.perform (.create s n)).2.Recorded file (rs ++ [w.record (.create s n)]) := by
  cases hcreate : Checker.create s (w.build n) with
  | error e =>
    rw [record, perform_refused hcreate]
    exact h.left rfl rfl rfl rfl
  | ok step =>
    have hlists : step.result.lists = true := (Checker.lists_of_create hcreate).trans hs
    rw [record, perform_created hcreate]
    refine Recorded.emptied (fun p hp => ?_) (by simp) ?_ rfl
    · rcases List.mem_append.1 hp with hp | hp
      · exact h.lists p hp
      · exact List.mem_singleton.1 hp ▸ hlists
    · change step.build.listing = _
      rw [(Checker.of_create hcreate).2.2]
      exact resetListing_present hlists (h.writable hfile)

theorem recorded_drive (i : Nat) (step : SessionStep) :
    (w.perform (.drive i step)).2.Recorded file (rs ++ [w.record (.drive i step)]) := by
  cases hi : w.checkers[i]? with
  | none =>
    rw [record, perform_absent hi]
    exact h.left rfl rfl (by cases step <;> rfl) rfl
  | some p =>
    obtain ⟨n, c⟩ := p
    have hc := List.mem_of_getElem? hi
    have hw : w.checkers ≠ [] := List.ne_nil_of_mem hc
    rw [record, perform_drive hi]
    cases step with
    | start =>
      exact Recorded.emptied h.lists hw (resetListing_present (h.lists _ hc) (h.writable hfile)) rfl
    | check u host =>
      -- There is a checker, so the listing has been emptied before and holds the earlier blocks.
      refine ⟨h.lists, fun hnil => absurd hnil hw, fun _ => ?_⟩
      rw [listingOf_other rfl]
      change (if c.lists then w.listing.append _ else _) = _
      rw [if_pos (h.lists _ hc), h.kept hw]
      rfl
    | finish => exact h.left rfl rfl rfl rfl

/-- The listing tells of one deed more. -/
theorem recorded_perform (d : Deed) (hd : ∀ s n, d = .create s n → s.listing.isSome = true) :
    (w.perform d).2.Recorded file (rs ++ [w.record d]) := by
  cases d with
  | create s n => exact recorded_create h hfile s n (hd s n rfl)
  | drive i step => exact recorded_drive h hfile i step
  | publish n s t => exact recorded_publish h n s t

end Recorded

theorem recorded_run (stores : Nat → TagStore) {file : ListingFile} (hfile : file ≠ .unwritable)
    (deeds : List Deed) (hlists : ∀ s n, Deed.create s n ∈ deeds → s.listing.isSome = true) :
    (run ⟨file, stores, []⟩ deeds).1.Recorded file (run ⟨file, stores, []⟩ deeds).2 := by
  induction deeds using List.reverseRecOn with
  | nil => exact ⟨nofun, fun _ => rfl, fun h => absurd rfl h⟩
  | append_singleton deeds d ih =>
    rw [run_concat]
    have hrun := ih fun s n hs => hlists s n (List.mem_append_left _ hs)
    refine recorded_perform hrun hfile d ?_
    rintro s n rfl
    exact hlists s n (List.mem_append_right _ List.mem_cons_self)

/-- Bridges that are refused leave everything as it was. -/
theorem perform_bridges_refused (w : Workplace) {s : Settings} {e : SetupError} (n : Nat)
    (h : CallPolicy.ofBridges s.bridges = .error e) :
    w.perform (.create s n) = (.refused e, w) := by
  refine perform_refused ?_
  rw [Checker.create_eq, Settings.policy, h]
  rfl

end Workplace

/-! ### Work without a listing -/

/-- The settings without the listing. -/
def Settings.unlisted (s : Settings) : Settings := { s with listing := none }

/-- The checker as it is without the listing. -/
def Checker.unlisted (c : Checker) : Checker := { c with settings := c.settings.unlisted }

/-- The build without its listing. -/
def Build.unlisted (b : Build) : Build := { b with listing := .missing }

/-- The deed, but a checker that is set up gets no listing. -/
def Deed.unlisted : Deed → Deed
  | create s n => create s.unlisted n
  | d => d

/-- The record of the deed as it is without the listing. -/
def DeedRecord.unlisted (r : DeedRecord) : DeedRecord := { r with deed := r.deed.unlisted }

@[simp] theorem Deed.unlisted_unlisted (d : Deed) : d.unlisted.unlisted = d.unlisted := by
  cases d <;> rfl

theorem Checker.resetListing_unlisted (c : Checker) (b : Build) :
    (c.resetListing b).unlisted = b.unlisted := by
  unfold resetListing
  split <;> rfl

/-- Settings are accepted or refused whether or not they ask for a listing. -/
theorem Checker.create_unlisted (s : Settings) (b : Build) :
    create s.unlisted b.unlisted =
      (create s b).map fun step => ⟨step.result.unlisted, step.build.unlisted, []⟩ := by
  have hpolicy : s.unlisted.policy = s.policy := rfl
  rw [create_eq, create_eq, hpolicy]
  cases s.policy with
  | error e => rfl
  | ok policy =>
    have hbuild := (resetListing_unlisted ⟨s, policy, s.exclusions⟩ b).symm
    exact congrArg (fun built => Except.ok (Step.mk _ built [])) hbuild

namespace Workplace

/-- The workplace as it is without the listing. -/
def unlisted (w : Workplace) : Workplace :=
  ⟨.missing, w.stores, w.checkers.map fun p => (p.1, p.2.unlisted)⟩

theorem command_unlisted (w : Workplace) (n : Nat) (c : Checker) (step : SessionStep) :
    w.unlisted.command n (step.command c.unlisted) =
      ((w.command n (step.command c)).1, (w.command n (step.command c)).2.unlisted) := by
  cases step with
  | start =>
    have hbuild := c.resetListing_unlisted { w.build n with store := (w.stores n).restart }
    exact congrArg (fun b => (DeedOutcome.came .done, w.unlisted.after n b)) hbuild.symm
  | check u host => rfl
  | finish => rfl

theorem perform_create_unlisted (w : Workplace) (s : Settings) (n : Nat) :
    w.unlisted.perform (.create s.unlisted n) =
      ((w.perform (.create s n)).1, (w.perform (.create s n)).2.unlisted) := by
  have hcreate := Checker.create_unlisted s (w.build n)
  cases h : Checker.create s (w.build n) with
  | error e =>
    rw [h] at hcreate
    rw [perform_refused hcreate, perform_refused h]
  | ok step =>
    rw [h] at hcreate
    rw [perform_created hcreate, perform_created h]
    refine congrArg (Prod.mk _) (Workplace.ext rfl rfl ?_)
    simp [unlisted]

theorem perform_drive_unlisted (w : Workplace) (i : Nat) (step : SessionStep) :
    w.unlisted.perform (.drive i step) =
      ((w.perform (.drive i step)).1, (w.perform (.drive i step)).2.unlisted) := by
  have hchecker : w.unlisted.checkers[i]? = w.checkers[i]?.map fun p => (p.1, p.2.unlisted) :=
    List.getElem?_map
  cases hi : w.checkers[i]? with
  | none =>
    rw [hi] at hchecker
    rw [perform_absent hchecker, perform_absent hi]
  | some p =>
    rw [hi] at hchecker
    rw [perform_drive hchecker, perform_drive hi, command_unlisted]

/-- A deed comes to the same without the listing. -/
theorem perform_unlisted (w : Workplace) (d : Deed) :
    w.unlisted.perform d.unlisted = ((w.perform d).1, (w.perform d).2.unlisted) := by
  cases d with
  | create s n => exact w.perform_create_unlisted s n
  | drive i step => exact w.perform_drive_unlisted i step
  | publish n s t => rfl

/-- Deeds come to the same without the listing. -/
theorem run_unlisted (w : Workplace) (deeds : List Deed) :
    w.unlisted.run (deeds.map Deed.unlisted) =
      ((w.run deeds).1.unlisted, (w.run deeds).2.map DeedRecord.unlisted) := by
  induction deeds using List.reverseRecOn with
  | nil => rfl
  | append_singleton deeds d ih =>
    rw [List.map_append, List.map_singleton, run_concat, ih, run_concat, perform_unlisted,
      List.map_append, List.map_singleton, record, perform_unlisted]
    rfl

/-- Runs of which only the listings differ have the same outcomes, and leave the same stores each
time. -/
theorem run_of_unlisted {w w' : Workplace} {deeds deeds' : List Deed}
    (hw : w.unlisted = w'.unlisted)
    (hdeeds : deeds.map Deed.unlisted = deeds'.map Deed.unlisted) :
    (w.run deeds).2.map (fun r => (r.outcome, r.stores)) =
      (w'.run deeds').2.map fun r => (r.outcome, r.stores) := by
  have h : (w.run deeds).2.map DeedRecord.unlisted = (w'.run deeds').2.map DeedRecord.unlisted := by
    have hrun := w'.run_unlisted deeds'
    rw [← hw, ← hdeeds, w.run_unlisted] at hrun
    exact congrArg Prod.snd hrun
  have hview := congrArg (List.map fun r : DeedRecord => (r.outcome, r.stores)) h
  rwa [List.map_map, List.map_map] at hview

/-- Checkers are all set up to write the listing at one path, where it can be written; they may work
with one store or with several. Then after any deeds the listing has the blocks of the files that were
checked since a checker was last set up or started a build, in order, and nothing else. Each block
lists the tags of the report on its file. Before the first checker the file is as it was found.
Settings whose bridges are refused change nothing. Without a listing the same deeds have the same
outcomes and leave the same stores each time, whatever the file is, and so they do if the path cannot
be written. -/
theorem listing_run (stores : Nat → TagStore) (file : ListingFile) (hfile : file ≠ .unwritable)
    (path : String) (deeds : List Deed)
    (hpath : ∀ s n, Deed.create s n ∈ deeds → s.listing = some path) :
    let w := run ⟨file, stores, []⟩ deeds
    let tables := tablesIn (sinceReset w.2)
    (w.1.checkers = [] → w.1.listing = file) ∧
      (w.1.checkers ≠ [] → w.1.listing = .present (String.join (tables.map TagMap.listing))) ∧
      (∀ tags ∈ tables, tags.ListedBy tags.listing) ∧
      (∀ s n e, CallPolicy.ofBridges s.bridges = .error e →
        w.1.perform (.create s n) = (.refused e, w.1)) ∧
      (∀ file', (run ⟨file', stores, []⟩ (deeds.map Deed.unlisted)).2.map
          (fun r => (r.outcome, r.stores)) = w.2.map fun r => (r.outcome, r.stores)) ∧
      (run ⟨.unwritable, stores, []⟩ deeds).2.map (fun r => (r.outcome, r.stores)) =
        w.2.map fun r => (r.outcome, r.stores) := by
  intro w tables
  have h : w.1.Recorded file w.2 :=
    recorded_run stores hfile deeds fun s n hs => by rw [hpath s n hs]; rfl
  refine ⟨h.untouched, h.kept, fun tags _ => tags.listedBy_listing,
    fun s n e => w.1.perform_bridges_refused n, fun file' => ?_, run_of_unlisted rfl rfl⟩
  refine run_of_unlisted rfl ?_
  rw [List.map_map]
  exact List.map_congr_left fun d _ => d.unlisted_unlisted

/-- Two checkers with stores of their own are set up with one listing, and settings with a bridge from
the universal tag are refused. One file is checked before the build starts, and two times in it: the
second time by the other checker, whose store is closed. -/
def twoListers : List Deed :=
  let s : Settings := { listing := some "tags.txt" }
  [.create s 0, .create { s with bridges := [(.any, .worker)] } 0, .create (s.advising false) 1,
    .drive 0 (.check Checker.detour Checker.detourHost), .drive 1 .start,
    .publish 1 ⟨"app.Job#stop()"⟩ ⟨.fx, .explicit⟩,
    .drive 1 (.check Checker.detour Checker.detourHost), .drive 0 .finish,
    .drive 0 (.check Checker.detour Checker.detourHost)]

/-- The file has two blocks. They differ in the job, which inherits from the base once that is in the
store. -/
theorem listing_run_twoListers :
    let w := run ⟨.present "stale", fun _ => {}, []⟩ twoListers
    w.1.listing = .present ("app.Base#run() Worker\napp.Job#run() Any\n" ++
        "app.Base#run() Worker\napp.Job#run() Worker\n") ∧
      (w.1.stores 0).tags.size = 2 ∧ (w.1.stores 0).rejected = 2 ∧ (w.1.stores 1).tags.size = 3 ∧
      (run ⟨.missing, fun _ => {}, []⟩ (twoListers.map Deed.unlisted)).2.map
        (fun r => (r.outcome, r.stores)) = w.2.map fun r => (r.outcome, r.stores) := by
  intro w
  obtain ⟨-, hkept, -, -, hunlisted, -⟩ :=
    listing_run (fun _ => {}) (.present "stale") nofun "tags.txt" twoListers fun s n hs => by
      simp only [twoListers, List.mem_cons, Deed.create.injEq, List.not_mem_nil, reduceCtorEq,
        or_false] at hs
      rcases hs with ⟨rfl, -⟩ | ⟨rfl, -⟩ | ⟨rfl, -⟩ <;> rfl
  have hcheckers : w.1.checkers.length = 2 := by decide
  have hblocks : String.join ((tablesIn (sinceReset w.2)).map TagMap.listing) =
      "app.Base#run() Worker\napp.Job#run() Any\n" ++
        "app.Base#run() Worker\napp.Job#run() Worker\n" := by decide
  have hlisting := (hkept (List.ne_nil_of_length_eq_add_one hcheckers)).trans
    (congrArg ListingFile.present hblocks)
  exact ⟨hlisting, by decide, by decide, by decide, hunlisted .missing⟩

end Workplace

end ThreadAffinity
