import ThreadAffinity.Proofs.Exports
import ThreadAffinity.Proofs.Splitting

/-!
Files that may be checked in either order.

A check of a file looks up the symbols that the file names and those that host declarations lead to
from there, and no others (`SourceUnit.LooksUp`). So what it comes to depends on the published tags
of these symbols alone (`Checker.check_congr`), and two files neither of which looks up what the
other exports may be checked in either order (`Checker.check_swap`). -/

namespace ThreadAffinity

/-- The symbols that a check of the file may look up outside it: those that the file names, and what
host declarations of such symbols override. -/
inductive SourceUnit.LooksUp (x : Exclusions) (host : HostTable) (u : SourceUnit) : Symbol → Prop
  | named {s : Symbol} : u.Names x s → LooksUp x host u s
  | onwards {s p : Symbol} {e : HostDecl} :
    LooksUp x host u s → host.get? s = some e → p ∈ e.overrides → LooksUp x host u p

namespace SourceUnit

variable {x : Exclusions} {host : HostTable} {u : SourceUnit}

/-- The symbols that a file names. -/
def named (x : Exclusions) (u : SourceUnit) : List Symbol :=
  (u.occurrences x).flatMap (·.member.overrides) ++ u.uses.filterMap (·.target)

theorem mem_named {s : Symbol} : s ∈ u.named x ↔ u.Names x s := by
  rw [named, List.mem_append, List.mem_flatMap, List.mem_filterMap, Names]

/-- A file looks up no more than what it names and what host declarations override from there. -/
theorem LooksUp.mem_of_closed {l : List Symbol} {s : Symbol} (h : u.LooksUp x host s)
    (hnamed : u.named x ⊆ l) (hl : ∀ e ∈ host.entries, e.1 ∈ l → e.2.overrides ⊆ l) : s ∈ l := by
  induction h with
  | named hs => exact hnamed (mem_named.2 hs)
  | onwards _ he hp ih => exact hl _ (SymbolMap.mem_entries_iff.2 he) ih hp

end SourceUnit

namespace Outside

variable {o o' : Outside}

theorem look_congr (hx : o'.exclusions = o.exclusions) (hhost : o'.host = o.host) {s : Symbol}
    (h : o'.store.get? s = o.store.get? s) : o'.look s = o.look s := by
  rw [look, look, publishedTag?, publishedTag?, hx, hhost, h]

theorem tagOfFirst_congr (hhost : o'.host = o.host) {ps : List Symbol}
    (h : ∀ q, o.Reached ps q → o'.look q = o.look q) (t : Trail) :
    o'.tagOfFirst ps t = o.tagOfFirst ps t := by
  have hdepth : o'.depth = o.depth := by rw [depth, depth, hhost]
  have hone : ∀ p ∈ ps, ∀ τ, o'.search o.depth p τ = o.search o.depth p τ := fun p hp τ =>
    search_congr _ p τ fun q hq =>
      h q (hq.trans fun p' hp' => .start (List.mem_singleton.1 hp' ▸ hp))
  rw [tagOfFirst, tagOfFirst, hdepth, firstTag_congr hone]

end Outside

namespace CallRules

variable {c c' : CallRules}

theorem targetTag_congr (hown : c'.own = c.own) (hhost : c'.outside.host = c.outside.host)
    {target : Symbol} (hstore : c'.outside.store.get? target = c.outside.store.get? target)
    (hlook : ∀ e, c.outside.host.get? target = some e →
      ∀ q, c.outside.Reached e.overrides q → c'.outside.look q = c.outside.look q) :
    c'.targetTag target = c.targetTag target := by
  rw [targetTag, targetTag, hown, hstore, hhost]
  cases c.own.get? target with
  | some t => rfl
  | none =>
    cases c.outside.store.get? target with
    | some t => rfl
    | none =>
      cases he : c.outside.host.get? target with
      | none => rfl
      | some e =>
        obtain ⟨_ | tag, ps⟩ := e
        · dsimp only
          rw [Outside.tagOfFirst_congr hhost (hlook _ he)]
        · rfl

/-- Rules that give the targets the same tags, found in the same places, come to the same report. -/
theorem check_congr (hpolicy : c'.policy = c.policy)
    (hx : c'.outside.exclusions = c.outside.exclusions) {sites : List CallSite}
    (h : ∀ site ∈ sites, ∀ target, site.target = some target →
      c'.targetTag target = c.targetTag target) (tally : Tally) :
    c'.check tally sites = c.check tally sites := by
  refine List.foldl_ext _ _ _ fun r site hsite => ?_
  unfold checkSite finding?
  cases ht : site.target with
  | none => rfl
  | some target => simp only [hx, hpolicy, h site hsite target ht]

end CallRules

namespace Checker

variable {c : Checker} {u : SourceUnit} {host : HostTable} {b b' : Build}

@[simp] theorem outside_store (c : Checker) (store : TagStore) (host : HostTable) :
    (c.outside store host).store = store.tags := rfl

@[simp] theorem outside_host (c : Checker) (store : TagStore) (host : HostTable) :
    (c.outside store host).host = host := rfl

theorem look_congr {s : Symbol} (h : b'.store.tags.get? s = b.store.tags.get? s) :
    (c.outside b'.store host).look s = (c.outside b.store host).look s := by
  have hexclusions :
      (c.outside b'.store host).exclusions = (c.outside b.store host).exclusions := rfl
  have hhost : (c.outside b'.store host).host = (c.outside b.store host).host := rfl
  exact Outside.look_congr hexclusions hhost h

/-- A search that starts among the symbols that a file looks up comes to no others. -/
theorem looksUp_of_reached {o : Outside} {ps : List Symbol} {s : Symbol}
    (hps : ∀ p ∈ ps, u.LooksUp o.exclusions o.host p) (h : o.Reached ps s) :
    u.LooksUp o.exclusions o.host s := by
  induction h with
  | start hs => exact hps _ hs
  | step _ hl hq ih => exact ih.onwards (Outside.host_of_look hl) hq

/-- The search for declared tags starts among them. -/
theorem looksUp_of_overriddenBeyond {x : Exclusions} {s : Symbol} (h : s ∈ u.overriddenBeyond x) :
    u.LooksUp x host s := by
  obtain ⟨d, hd, hp⟩ := List.mem_flatMap.1 h
  exact .named (Or.inl ⟨d, SourceUnit.mem_occurrences_of_roster _ _ hd, (List.mem_filter.1 hp).1⟩)

/-- Where the published tags are the same for all symbols that a file looks up, so are its declared
tags. -/
theorem declaredTags_congr
    (h : ∀ s, u.LooksUp c.exclusions host s → b'.store.tags.get? s = b.store.tags.get? s) :
    c.declaredTags u host b' = c.declaredTags u host b := by
  refine u.declaredTags_congr c.policy rfl rfl fun s hs => ?_
  exact look_congr (h s (looksUp_of_reached (fun _ => looksUp_of_overriddenBeyond) hs))

/-- What its own publications add to the store does not part them again. -/
theorem store_after_congr (hsealed : b'.store.isSealed = b.store.isSealed)
    (heffective : c.effectiveTags u host b' = c.effectiveTags u host b) {s : Symbol}
    (h : b'.store.tags.get? s = b.store.tags.get? s) :
    (c.check u host b').build.store.tags.get? s = (c.check u host b).build.store.tags.get? s := by
  rw [check_store, check_store, heffective, TagStore.tags_publishAll, TagStore.tags_publishAll,
    hsealed]
  split
  · exact h
  · rw [SymbolMap.get?_foldl_put, SymbolMap.get?_foldl_put, h]

/-- And its targets have the same tags. -/
theorem targetTag_congr (heffective : c.effectiveTags u host b' = c.effectiveTags u host b)
    (hafter : ∀ s, u.LooksUp c.exclusions host s →
      (c.check u host b').build.store.tags.get? s = (c.check u host b).build.store.tags.get? s)
    {target : Symbol} (htarget : u.LooksUp c.exclusions host target) :
    (c.callRules u host b').targetTag target = (c.callRules u host b).targetTag target := by
  have hown : (c.callRules u host b').own = (c.callRules u host b).own := by
    rw [callRules_own, callRules_own, heffective]
  refine CallRules.targetTag_congr hown ?_ ?_ fun e he q hq => ?_
  all_goals simp only [callRules_outside, outside_host, outside_store] at *
  · exact hafter target htarget
  · exact look_congr (hafter q (looksUp_of_reached (fun _ => htarget.onwards he) hq))

/-- Where the published tags are the same for all symbols that a file looks up, a check of it has
the same result and makes the same publications. -/
theorem check_congr (hsealed : b'.store.isSealed = b.store.isSealed)
    (h : ∀ s, u.LooksUp c.exclusions host s → b'.store.tags.get? s = b.store.tags.get? s) :
    (c.check u host b').result = (c.check u host b).result ∧
      c.effectiveTags u host b' = c.effectiveTags u host b := by
  have hdeclared := declaredTags_congr h
  have heffective := effectiveTags_congr (congrArg DeclaredTags.tags hdeclared)
  refine ⟨?_, heffective⟩
  have hafter := fun s hs => store_after_congr hsealed heffective (h s hs)
  have hcalls : c.callReport u host b' = c.callReport u host b := by
    rw [callReport, callReport, heffective]
    refine CallRules.check_congr ?_ ?_ (fun site hsite target ht => ?_) _
    · rw [callRules_policy, callRules_policy]
    · rw [callRules_exclusions, callRules_exclusions]
    · exact targetTag_congr heffective hafter (.named (SourceUnit.names_of_site hsite ht))
  rw [check_result, check_result, hdeclared, heffective, hcalls]

/-- A file may be checked before or after another one that exports nothing that the former looks
up. -/
theorem check_after {u' : SourceUnit}
    (h : ∀ s, u.LooksUp c.exclusions host s → ¬ u'.Exports c.exclusions s) :
    (c.check u host (c.check u' host b).build).result = (c.check u host b).result ∧
      c.effectiveTags u host (c.check u' host b).build = c.effectiveTags u host b := by
  refine check_congr (TagStore.isSealed_publishAll ..) fun s hs => ?_
  exact store_get?_of_not_exported fun hexp => h s hs (SourceUnit.mem_exported_iff.1 hexp)

/-- Two files that export different symbols, neither of which looks up what the other exports, may
be checked in either order: each has the same report, and in the end the store is the same. -/
theorem check_swap (c : Checker) (host : HostTable) (b : Build) (u₁ u₂ : SourceUnit)
    (hexports : ∀ s, u₁.Exports c.exclusions s → ¬ u₂.Exports c.exclusions s)
    (h₁ : ∀ s, u₁.LooksUp c.exclusions host s → ¬ u₂.Exports c.exclusions s)
    (h₂ : ∀ s, u₂.LooksUp c.exclusions host s → ¬ u₁.Exports c.exclusions s) :
    (c.check u₁ host (c.check u₂ host b).build).result = (c.check u₁ host b).result ∧
      (c.check u₂ host (c.check u₁ host b).build).result = (c.check u₂ host b).result ∧
      (c.check u₂ host (c.check u₁ host b).build).build.store =
        (c.check u₁ host (c.check u₂ host b).build).build.store := by
  obtain ⟨hresult₁, heffective₁⟩ := check_after (b := b) h₁
  obtain ⟨hresult₂, heffective₂⟩ := check_after (b := b) h₂
  refine ⟨hresult₁, hresult₂, ?_⟩
  rw [check_store, heffective₂, check_store, check_store, heffective₁, check_store]
  refine TagStore.publishAll_comm (fun s hs₁ hs₂ => ?_) b.store
  obtain ⟨p, hp, rfl⟩ := List.mem_map.1 hs₁
  obtain ⟨q, hq, heq⟩ := List.mem_map.1 hs₂
  refine hexports p.1 (SourceUnit.mem_exported_iff.1 (mem_publications_iff.1 hp).1) ?_
  exact heq ▸ SourceUnit.mem_exported_iff.1 (mem_publications_iff.1 hq).1

/-- A dialog of the user interface that calls a task of the library. -/
def dialogFile : SourceUnit where
  path := "Dialog.java"
  types := [{ name := "app.Dialog", members := [
    { symbol := ⟨"app.Dialog#show()"⟩, kind := .method, overrides := [⟨"lib.Frame#show()"⟩],
      body := [.use .call (some ⟨"lib.Task#run()"⟩) ⟨10, 15⟩] }] }]

/-- A library whose tasks run in the background. Its frames are windows, and these are of the user
interface. -/
def frameHost : HostTable := SymbolMap.ofList [(⟨"lib.Task#run()"⟩, { tag := some .worker }),
  (⟨"lib.Frame#show()"⟩, { overrides := [⟨"lib.Window#show()"⟩] }),
  (⟨"lib.Window#show()"⟩, { tag := some .swing })]

/-- The job and the dialog share the library only, so either may be checked first. The dialog's call
is illegal both times. -/
theorem check_swap_job_dialog :
    (plain.check dialogFile frameHost (plain.check jobFile frameHost {}).build).result =
        (plain.check dialogFile frameHost {}).result ∧
      (plain.check dialogFile frameHost {}).result.findings.length = 1 ∧
      (plain.check jobFile frameHost (plain.check dialogFile frameHost {}).build).build.store =
        (plain.check dialogFile frameHost (plain.check jobFile frameHost {}).build).build.store := by
  have hjob : ∀ s, jobFile.Exports plain.exclusions s → s ∈ [⟨"app.Job#run()"⟩] := fun s hs =>
    (@SourceUnit.mem_exported_iff _ _ .empty false s).2 hs
  have hdialog : ∀ s, dialogFile.Exports plain.exclusions s → s ∈ [⟨"app.Dialog#show()"⟩] :=
    fun s hs => (@SourceUnit.mem_exported_iff _ _ .empty false s).2 hs
  have hjobLooks : ∀ s, jobFile.LooksUp plain.exclusions frameHost s →
      s ∈ [⟨"lib.Task#run()"⟩, ⟨"app.Job#log()"⟩] := fun s hs =>
    hs.mem_of_closed (by decide) (by decide)
  have hdialogLooks : ∀ s, dialogFile.LooksUp plain.exclusions frameHost s →
      s ∈ [⟨"lib.Frame#show()"⟩, ⟨"lib.Window#show()"⟩, ⟨"lib.Task#run()"⟩] := fun s hs =>
    hs.mem_of_closed (by decide) (by decide)
  have hexports : ∀ s ∈ [⟨"app.Dialog#show()"⟩], s ∉ [(⟨"app.Job#run()"⟩ : Symbol)] := by decide
  have hdialogJob : ∀ s ∈ [⟨"lib.Frame#show()"⟩, ⟨"lib.Window#show()"⟩, ⟨"lib.Task#run()"⟩],
      s ∉ [(⟨"app.Job#run()"⟩ : Symbol)] := by decide
  have hjobDialog : ∀ s ∈ [⟨"lib.Task#run()"⟩, ⟨"app.Job#log()"⟩],
      s ∉ [(⟨"app.Dialog#show()"⟩ : Symbol)] := by decide
  obtain ⟨hresult, -, hstore⟩ := check_swap plain frameHost {} dialogFile jobFile
    (fun s hs hs' => hexports s (hdialog s hs) (hjob s hs'))
    (fun s hs hs' => hdialogJob s (hdialogLooks s hs) (hjob s hs'))
    (fun s hs hs' => hjobDialog s (hjobLooks s hs) (hdialog s hs'))
  exact ⟨hresult, by decide, hstore⟩

end Checker

end ThreadAffinity
