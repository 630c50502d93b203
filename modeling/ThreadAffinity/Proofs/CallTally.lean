import Mathlib.Algebra.BigOperators.Group.List.Basic
import ThreadAffinity.Proofs.Report
import ThreadAffinity.Proofs.VisitOrder

/-!
Looking targets up, and counting what was done.

A call site is looked up and counted on its own: it adds the same to every tally
(`CallRules.siteTally`) and brings the same finding, whatever was checked before it. So a tally is a
sum over sites. It balances because the tally of each site does, and it depends neither on the order
of the sites nor on how they are cut into batches (`CallRules.batches_balance`).

The look-up of a target that the file does not have is a search of its own kind: it asks the store
for tags of any origin, and it starts below the target and not at it. It comes to the tag that a
member inherits which overrides the target (`CallRules.calls_see_inherited_tag`). -/

namespace ThreadAffinity

/-! ### Adding tallies up -/

namespace Tally

attribute [ext] Tally

instance : Zero Tally := ⟨{}⟩

instance : Add Tally where
  add n m :=
    { sites := n.sites + m.sites
      checked := n.checked + m.checked
      skippedUnresolved := n.skippedUnresolved + m.skippedUnresolved
      skippedIgnored := n.skippedIgnored + m.skippedIgnored
      storeHits := n.storeHits + m.storeHits
      hostLookups := n.hostLookups + m.hostLookups
      degraded := n.degraded + m.degraded }

section

variable (n m : Tally)

@[simp] theorem sites_add : (n + m).sites = n.sites + m.sites := rfl

@[simp] theorem checked_add : (n + m).checked = n.checked + m.checked := rfl

@[simp] theorem skippedUnresolved_add :
    (n + m).skippedUnresolved = n.skippedUnresolved + m.skippedUnresolved := rfl

@[simp] theorem skippedIgnored_add :
    (n + m).skippedIgnored = n.skippedIgnored + m.skippedIgnored := rfl

@[simp] theorem storeHits_add : (n + m).storeHits = n.storeHits + m.storeHits := rfl

@[simp] theorem hostLookups_add : (n + m).hostLookups = n.hostLookups + m.hostLookups := rfl

@[simp] theorem degraded_add : (n + m).degraded = n.degraded + m.degraded := rfl

end

instance : AddCommMonoid Tally where
  add_assoc a b c := by ext <;> simp <;> omega
  zero_add a := by ext <;> exact Nat.zero_add _
  add_zero a := by ext <;> exact Nat.add_zero _
  add_comm a b := by ext <;> simp <;> omega
  nsmul := nsmulRec

theorem count_add (n m : Tally) (route : Route) : (n + m).count route = n + m.count route := by
  cases route <;> rfl

/-- The counters of a tally agree with one another, with the number of checked sites whose target
is one of the file's own, and with the number of findings. -/
structure Balances (n : Tally) (own findings : Nat) : Prop where
  sites : n.sites = n.checked + n.skippedUnresolved + n.skippedIgnored
  checked : n.checked = own + n.storeHits + n.hostLookups
  degraded : n.degraded ≤ n.hostLookups
  findings : findings ≤ n.checked

theorem Balances.add {n m : Tally} {own own' findings findings' : Nat}
    (h : n.Balances own findings) (h' : m.Balances own' findings') :
    (n + m).Balances (own + own') (findings + findings') := by
  obtain ⟨hsites, hchecked, hdegraded, hfindings⟩ := h
  obtain ⟨hsites', hchecked', hdegraded', hfindings'⟩ := h'
  constructor <;> simp <;> omega

end Tally

namespace CallRules

variable (c : CallRules)

/-! ### What one site adds -/

/-- Where the tag of a target is found. -/
theorem route_targetTag (target : Symbol) : (c.targetTag target).route =
    if c.own.contains target then .own
    else if c.outside.store.contains target then .store
    else if c.outside.host.contains target then .host
    else .nowhere := by
  unfold targetTag SymbolMap.contains
  cases c.own.get? target with
  | some t => rfl
  | none =>
    cases c.outside.store.get? target with
    | some t => rfl
    | none => rcases c.outside.host.get? target with _ | ⟨_ | tag, ps⟩ <;> rfl

/-- What a site adds to a tally. -/
def siteTally (site : CallSite) : Tally :=
  match site.target with
  | none => { sites := 1, skippedUnresolved := 1 }
  | some target =>
    if c.outside.exclusions.covers target.owner then { sites := 1, skippedIgnored := 1 }
    else ({ sites := 1, checked := 1 } : Tally).count (c.targetTag target).route

theorem checkSite_tally (r : CallReport) (site : CallSite) :
    (c.checkSite r site).tally = r.tally + c.siteTally site := by
  unfold checkSite siteTally
  cases site.target with
  | none => rfl
  | some target =>
    dsimp only
    split
    · rfl
    · rw [← Tally.count_add]
      rfl

/-- A tally is a sum over sites. -/
theorem check_tally (n : Tally) (sites : List CallSite) :
    (c.check n sites).tally = n + (sites.map c.siteTally).sum := by
  have hall : ∀ (sites : List CallSite) (r : CallReport),
      (sites.foldl c.checkSite r).tally = r.tally + (sites.map c.siteTally).sum := by
    intro sites
    induction sites with
    | nil => intro r; simp
    | cons site sites ih =>
      intro r
      rw [List.foldl_cons, ih, checkSite_tally, List.map_cons, List.sum_cons, add_assoc]
  exact hall sites { tally := n }

/-- Whether a site is checked against one of the file's own members. -/
def isOwn (site : CallSite) : Bool :=
  site.target.any fun target =>
    !c.outside.exclusions.covers target.owner && c.own.contains target

theorem balances_site (site : CallSite) :
    (c.siteTally site).Balances (c.isOwn site).toNat (c.siteFinding? site).toList.length := by
  unfold siteTally isOwn siteFinding?
  cases site.target with
  | none => constructor <;> simp
  | some target =>
    have hfinding : ∀ tag, (c.finding? site target tag).toList.length ≤ 1 := by
      intro tag
      cases c.finding? site target tag <;> simp
    simp only [Option.any_some, Option.bind_some]
    cases hcov : c.outside.exclusions.covers target.owner with
    | true => constructor <;> simp
    | false =>
      have hroute := c.route_targetTag target
      cases hown : c.own.contains target with
      | true =>
        rw [hown, if_pos rfl] at hroute
        constructor <;> simp [hroute, Tally.count, hfinding]
      | false =>
        rw [hown, if_neg Bool.false_ne_true] at hroute
        split at hroute
        · constructor <;> simp [hroute, Tally.count, hfinding]
        · split at hroute <;> constructor <;> simp [hroute, Tally.count, hfinding]

/-- What balances for every site balances for all of them. -/
theorem balances_sites (sites : List CallSite) :
    (sites.map c.siteTally).sum.Balances (sites.countP c.isOwn)
      (sites.filterMap c.siteFinding?).length := by
  induction sites with
  | nil => exact ⟨rfl, rfl, le_rfl, le_rfl⟩
  | cons site sites ih =>
    have hsum := (c.balances_site site).add ih
    have hown : (site :: sites).countP c.isOwn =
        (c.isOwn site).toNat + sites.countP c.isOwn := by
      rw [List.countP_cons, Nat.add_comm]
      cases c.isOwn site <;> rfl
    have hfindings : ((site :: sites).filterMap c.siteFinding?).length =
        (c.siteFinding? site).toList.length + (sites.filterMap c.siteFinding?).length := by
      cases h : c.siteFinding? site <;> simp [h, Nat.add_comm]
    rw [List.map_cons, List.sum_cons, hown, hfindings]
    exact hsum

/-! ### Batches -/

/-- Checks batches of sites one after another. The tally goes on from batch to batch, and each batch
has its own findings. -/
def checkBatches (n : Tally) : List (List CallSite) → List CallReport
  | [] => []
  | sites :: rest => c.check n sites :: checkBatches (c.check n sites).tally rest

/-- The tally after the last of some batches that were begun with another one. -/
def tallyAfter (n : Tally) (reports : List CallReport) : Tally :=
  (reports.getLast?.map CallReport.tally).getD n

@[simp]
theorem tallyAfter_nil (n : Tally) : tallyAfter n [] = n := rfl

@[simp]
theorem tallyAfter_cons (n : Tally) (r : CallReport) (rs : List CallReport) :
    tallyAfter n (r :: rs) = tallyAfter r.tally rs := by
  cases rs with
  | nil => rfl
  | cons r' rs => simp [tallyAfter, List.getLast?_cons]

theorem take_checkBatches : ∀ (batches : List (List CallSite)) (n : Tally) (k : Nat),
    (c.checkBatches n batches).take k = c.checkBatches n (batches.take k)
  | [], _, _ => by simp [checkBatches]
  | _ :: _, _, 0 => rfl
  | sites :: rest, n, k + 1 => by
    simp only [checkBatches, List.take_succ_cons]
    rw [take_checkBatches rest]

/-- Batches come to what their sites come to in one batch. -/
theorem checkBatches_flatten (batches : List (List CallSite)) (n : Tally) :
    tallyAfter n (c.checkBatches n batches) = (c.check n batches.flatten).tally ∧
      (c.checkBatches n batches).flatMap (·.findings) = (c.check n batches.flatten).findings := by
  rw [check_tally, check_findings]
  induction batches generalizing n with
  | nil => simp [checkBatches]
  | cons sites rest ih =>
    obtain ⟨htally, hfindings⟩ := ih (c.check n sites).tally
    rw [checkBatches, tallyAfter_cons, List.flatMap_cons, htally, hfindings, check_tally,
      check_findings, List.flatten_cons, List.map_append, List.sum_append, List.filterMap_append,
      add_assoc]
    exact ⟨rfl, rfl⟩

/-- After any number of batches every site was checked or passed over, each checked target was the
file's own, published, or asked of the host, the targets that nobody knew are among the latter, and
there is at most one finding for each checked site. Batches come to what their sites come to in one
batch with a fresh tally, and the sites of a batch may be checked in any order. -/
theorem batches_balance (c : CallRules) (batches : List (List CallSite)) :
    let reports := c.checkBatches {} batches
    (∀ k, (tallyAfter {} (reports.take k)).Balances ((batches.take k).flatten.countP c.isOwn)
      ((reports.take k).flatMap (·.findings)).length) ∧
    reports.flatMap (·.findings) = (c.check {} batches.flatten).findings ∧
    tallyAfter {} reports = (c.check {} batches.flatten).tally ∧
    ∀ (n : Tally) (sites sites' : List CallSite), sites'.Perm sites →
      (c.check n sites').findings.Perm (c.check n sites).findings ∧
        (c.check n sites').tally = (c.check n sites).tally := by
  intro reports
  refine ⟨fun k => ?_, (c.checkBatches_flatten batches {}).2, (c.checkBatches_flatten batches {}).1,
    fun n sites sites' hperm => ⟨?_, ?_⟩⟩
  · obtain ⟨htally, hfindings⟩ := c.checkBatches_flatten (batches.take k) {}
    rw [c.take_checkBatches, htally, hfindings, check_tally, check_findings]
    have hsum := c.balances_sites (batches.take k).flatten
    rwa [← zero_add (List.sum _)] at hsum
  · rw [check_findings, check_findings]
    exact hperm.filterMap _
  · rw [check_tally, check_tally, (hperm.map _).sum_eq]

/-- A call to a method of the library. -/
def jobCall : CallSite :=
  { caller := ⟨⟨"app.Main#main()"⟩, false⟩, callerTag := .swing,
    target := some ⟨"lib.Job#run()"⟩, access := .call, span := ⟨1, 9⟩ }

/-- A method reference that the front end could not resolve. -/
def unknownReference : CallSite :=
  { caller := ⟨⟨"app.Main#main()"⟩, false⟩, callerTag := .any, target := none,
    access := .methodRef, span := ⟨11, 20⟩ }

/-- Two batches of the same sites, in one order and in the other. -/
theorem batches_balance_jobs :
    let c : CallRules := ⟨.strict, {}, { store := {}, host := Outside.jobs, exclusions := {} }⟩
    let sites := [jobCall, unknownReference]
    tallyAfter {} (c.checkBatches {} [sites, sites.reverse]) =
        { sites := 4, checked := 2, skippedUnresolved := 2, hostLookups := 2 } ∧
      (c.check {} sites.reverse).tally = (c.check {} sites).tally := by
  intro c sites
  obtain ⟨-, -, hone, horder⟩ := c.batches_balance [sites, sites.reverse]
  exact ⟨hone.trans (by decide), (horder {} _ _ sites.reverse_perm).2⟩

/-! ### Targets that the file does not have -/

/-- If no inferred tag is published for a target, it is looked up with the same result as an
overridden member. The former starts at the target's overridden members and holds the target against
them, the latter starts at the target, so both come back to it or both do not. -/
theorem targetTag_tag {target : Symbol} (hown : c.own.get? target = none)
    (hkept : c.outside.exclusions.covers target.owner = false)
    (hdeclared : ∀ t, c.outside.store.get? target = some t → t.origin.isDeclared = true) :
    (c.targetTag target).tag = (c.outside.tagFrom [] target).getD .any := by
  have hpub := c.outside.publishedTag?_eq target
  unfold targetTag
  rw [hown]
  cases hstore : c.outside.store.get? target with
  | some t =>
    have hpublished : (some t).filter (·.origin.isDeclared) = some t :=
      Option.filter_some_pos (hdeclared t hstore)
    rw [hstore, hpublished, Option.map_some] at hpub
    have hl : c.outside.look target = .found (some t.tag) := by simp [Outside.look, hkept, hpub]
    rw [Outside.tagFrom_found hl]
    rfl
  | none =>
    rw [hstore, Option.filter_none, Option.map_none] at hpub
    rcases hhost : c.outside.host.get? target with _ | ⟨_ | tag, ps⟩
    · rw [Outside.tagFrom_found (Outside.look_of_undeclared hkept hhost), hpub]
      rfl
    · have hl : c.outside.look target = .onwards ps := by
        simp [Outside.look, hkept, hpub, hhost]
      rw [Outside.tagFrom_onwards hl, if_neg List.not_mem_nil]
      exact congrArg (·.getD Tag.any) (Outside.tagOfFirst_fst ps _)
    · have hl : c.outside.look target = .found (some tag) := by
        simp [Outside.look, hkept, hpub, hhost]
      rw [Outside.tagFrom_found hl]
      rfl

/-- A target that the file does not have counts as degraded if neither the store nor the host knows
it, and as a store hit if it is published. -/
theorem siteTally_beyond {site : CallSite} {target : Symbol} (hsite : site.target = some target)
    (hown : c.own.get? target = none)
    (hkept : c.outside.exclusions.covers target.owner = false) :
    (c.siteTally site).degraded =
        (if c.outside.store.get? target = none ∧ c.outside.host.get? target = none then 1 else 0) ∧
      (c.siteTally site).storeHits = (c.outside.store.get? target).isSome.toNat := by
  have hroute := c.route_targetTag target
  unfold siteTally
  rw [hsite]
  dsimp only
  rw [hkept, if_neg Bool.false_ne_true, hroute]
  unfold SymbolMap.contains
  rw [hown]
  cases c.outside.store.get? target <;> cases c.outside.host.get? target <;>
    exact ⟨rfl, rfl⟩

/-- Callers of a member that the file does not have see the tag that its overriders inherit: the one
that a search from the member finds, and the universal one if that finds none. Such a call counts as
degraded exactly if neither the store nor the host knows the member, and as a store hit exactly if
its tag is published. -/
theorem calls_see_inherited_tag (c : CallRules) (target : Symbol)
    (hown : c.own.get? target = none)
    (hkept : c.outside.exclusions.covers target.owner = false)
    (hdeclared : ∀ t, c.outside.store.get? target = some t → t.origin.isDeclared = true) :
    ∃ found log, c.outside.search c.outside.depth target {} = some (found, ⟨[], log⟩) ∧
      (c.targetTag target).tag = found.getD .any ∧
      ∀ (r : CallReport) (site : CallSite), site.target = some target →
        (c.checkSite r site).findings =
            r.findings ++ (c.finding? site target (found.getD .any)).toList ∧
          (c.checkSite r site).tally.degraded = r.tally.degraded +
            (if c.outside.store.get? target = none ∧ c.outside.host.get? target = none
              then 1 else 0) ∧
          (c.checkSite r site).tally.storeHits =
            r.tally.storeHits + (c.outside.store.get? target).isSome.toNat := by
  obtain ⟨⟨path, log⟩, hsearch, hpath⟩ :=
    Outside.search_eq c.outside.depth target {} (Outside.offPath_host_lt_depth [])
  obtain rfl : path = [] := hpath
  have htag := c.targetTag_tag hown hkept hdeclared
  refine ⟨_, log, hsearch, htag, fun r site hsite => ?_⟩
  obtain ⟨hdegraded, hhits⟩ := c.siteTally_beyond hsite hown hkept
  refine ⟨?_, ?_, ?_⟩
  · rw [checkSite_findings, siteFinding?, hsite, Option.bind_some, hkept,
      if_neg Bool.false_ne_true, htag]
  · rw [checkSite_tally, Tally.degraded_add, hdegraded]
  · rw [checkSite_tally, Tally.storeHits_add, hhits]

/-- The first method that the job overrides leads back to it, the second one runs on a worker. -/
theorem calls_see_inherited_tag_looped :
    let c : CallRules := ⟨.strict, {}, { store := {}, host := Outside.jobs, exclusions := {} }⟩
    let r := c.checkSite {} jobCall
    (c.targetTag ⟨"lib.Job#run()"⟩).tag = .worker ∧
      r.findings.map (·.problem) =
        [.illegalCall ⟨⟨"app.Main#main()"⟩, false⟩ ⟨"lib.Job#run()"⟩ .swing .worker .call] ∧
      r.tally.degraded = 0 ∧ r.tally.storeHits = 0 := by
  intro c r
  obtain ⟨found, log, hsearch, htag, hsite⟩ := c.calls_see_inherited_tag ⟨"lib.Job#run()"⟩
    (by decide) (by decide) (fun t h => by cases h)
  have hfound : c.outside.search c.outside.depth ⟨"lib.Job#run()"⟩ {} =
      some (some .worker, ⟨[], [.outsideLoop ⟨"lib.Job#run()"⟩]⟩) := by
    decide
  rw [hsearch] at hfound
  cases hfound
  obtain ⟨hfindings, hdegraded, hhits⟩ := hsite {} jobCall rfl
  refine ⟨htag, ?_, hdegraded.trans (by decide), hhits.trans (by decide)⟩
  rw [hfindings]
  decide

/-- A published tag that no annotation stands behind is for callers only. -/
example :
    let o : Outside :=
      { store := SymbolMap.ofList [(⟨"lib.Task#run()"⟩, ⟨.worker, .enclosing⟩)], host := {},
        exclusions := {} }
    (targetTag ⟨.strict, {}, o⟩ ⟨"lib.Task#run()"⟩).tag = .worker ∧
      o.tagOf ⟨"lib.Task#run()"⟩ {} = (none, {}) := by
  decide

end CallRules

end ThreadAffinity
