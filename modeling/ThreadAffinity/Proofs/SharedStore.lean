import Mathlib.Data.Finset.Card
import Mathlib.Data.List.DropRight
import ThreadAffinity.Proofs.SymbolMaps
import ThreadAffinity.TagStore

/-!
A store and those who hold it.

Checkers that take part in one build hold its store by handles. Whoever copies a handle holds the
same store, and every holder may publish, look tags up, restart and close. Whatever they do, in any
order, a store is a map in which the last writer wins and which is closed to writers at times: it
reflects the exchanges with its holders since the latest restart (`TagStore.Reflects`). One exchange
keeps that up, so any number of them do, and all that the holders can see follows from it
(`Holdings.held_store`). -/

namespace ThreadAffinity

/-- What a holder of a store can ask of it. -/
inductive StoreRequest where
  | publish (symbol : Symbol) (tag : SourcedTag)
  | get (symbol : Symbol)
  | list
  | restart
  | close
deriving DecidableEq

/-- What a request comes back with. -/
inductive StoreReply where
  /-- Whether the tag was taken in. -/
  | published (accepted : Bool)
  | found (tag : Option SourcedTag)
  | listed (entries : List (Symbol × SourcedTag))
  | done
deriving DecidableEq

/-- The reply to a request, and the store afterwards. -/
def TagStore.serve (s : TagStore) : StoreRequest → StoreReply × TagStore
  | .publish a t => (.published s.accepts, s.publish a t)
  | .get a => (.found (s.get? a), s)
  | .list => (.listed s.tags.entries, s)
  | .restart => (.done, s.restart)
  | .close => (.done, s.close)

/-- A request that was made to a store, and the reply to it. -/
structure Exchange where
  /-- The number of the store. -/
  store : Nat
  request : StoreRequest
  reply : StoreReply

namespace Exchange

/-- Whether a tag was to be published. -/
def isPublication (e : Exchange) : Bool :=
  match e.request with
  | .publish .. => true
  | _ => false

/-- Whether the store was restarted. -/
def isRestart (e : Exchange) : Bool := e.request == .restart

/-- Whether the store was closed. -/
def isClose (e : Exchange) : Bool := e.request == .close

/-- Whether a tag was taken in. -/
def isAccepted (e : Exchange) : Bool := e.reply == .published true

/-- The symbol and the tag that were taken in. -/
def accepted? (e : Exchange) : Option (Symbol × SourcedTag) :=
  match e.request with
  | .publish a t => if e.isAccepted then some (a, t) else none
  | _ => none

end Exchange

/-- The exchanges since the latest restart, all of them if there was none. -/
def sinceRestart (es : List Exchange) : List Exchange := es.rtakeWhile (!·.isRestart)

/-- The symbols and tags that were taken in, in order. -/
def acceptedIn (es : List Exchange) : List (Symbol × SourcedTag) := es.filterMap Exchange.accepted?

theorem sinceRestart_concat (es : List Exchange) (e : Exchange) :
    sinceRestart (es ++ [e]) = if e.isRestart then [] else sinceRestart es ++ [e] := by
  rw [sinceRestart, List.rtakeWhile_concat]
  cases e.isRestart <;> rfl

theorem acceptedIn_concat (es : List Exchange) (e : Exchange) :
    acceptedIn (es ++ [e]) = acceptedIn es ++ e.accepted?.toList := by
  rw [acceptedIn, List.filterMap_append, acceptedIn]
  cases h : e.accepted? <;> simp [h]

/-! ### One store -/

namespace TagStore

/-- The store is what the exchanges since the latest restart have made of an empty one. -/
structure Reflects (s : TagStore) (es : List Exchange) : Prop where
  tags : s.tags = .ofList (acceptedIn es)
  isSealed : s.isSealed = es.any Exchange.isClose
  writes : s.writes = es.countP Exchange.isAccepted
  accepted : s.writes = (acceptedIn es).length
  rejected : s.writes + s.rejected = es.countP Exchange.isPublication

theorem reflects_empty : Reflects .empty [] := ⟨rfl, rfl, rfl, rfl, rfl⟩

theorem publish_of_sealed {s : TagStore} (h : s.isSealed = true) (a : Symbol) (t : SourcedTag) :
    s.publish a t = { s with rejected := s.rejected + 1 } := if_pos h

theorem publish_of_open {s : TagStore} (h : s.isSealed = false) (a : Symbol) (t : SourcedTag) :
    s.publish a t = { s with tags := s.tags.put a t, writes := s.writes + 1 } := by
  rw [publish, h, if_neg Bool.false_ne_true]

/-- A store goes on reflecting the exchanges if it does what the next one says. -/
theorem Reflects.concat {s s' : TagStore} {es : List Exchange} {e : Exchange} (h : s.Reflects es)
    (htags : s'.tags = e.accepted?.toList.foldl (fun m p => m.put p.1 p.2) s.tags)
    (hsealed : s'.isSealed = (s.isSealed || e.isClose))
    (hwrites : s'.writes = s.writes + e.isAccepted.toNat)
    (haccepted : e.accepted?.toList.length = e.isAccepted.toNat)
    (hrejected : s'.writes + s'.rejected = s.writes + s.rejected + e.isPublication.toNat) :
    s'.Reflects (es ++ [e]) where
  tags := by
    rw [htags, h.tags, acceptedIn_concat, SymbolMap.ofList, SymbolMap.ofList, List.foldl_append]
  isSealed := by rw [hsealed, h.isSealed, List.any_append, List.any_cons, List.any_nil, Bool.or_false]
  writes := by
    rw [hwrites, h.writes, List.countP_append, List.countP_singleton, Bool.toNat, cond_eq_ite]
  accepted := by
    rw [hwrites, h.accepted, acceptedIn_concat, List.length_append, haccepted]
  rejected := by
    rw [hrejected, h.rejected, List.countP_append, List.countP_singleton, Bool.toNat, cond_eq_ite]

/-- One more exchange is reflected as well. -/
theorem Reflects.serve {s : TagStore} {es : List Exchange} (h : s.Reflects (sinceRestart es))
    (n : Nat) (r : StoreRequest) :
    (s.serve r).2.Reflects (sinceRestart (es ++ [⟨n, r, (s.serve r).1⟩])) := by
  rw [sinceRestart_concat]
  cases r with
  | restart => exact reflects_empty
  | publish a t =>
    cases hs : s.isSealed with
    | true =>
      have hserve : s.serve (.publish a t) =
          (.published false, { s with rejected := s.rejected + 1 }) := by
        rw [TagStore.serve, accepts, publish_of_sealed hs, hs, Bool.not_true]
      rw [hserve]
      exact h.concat rfl (Bool.or_false _).symm rfl rfl rfl
    | false =>
      have hserve : s.serve (.publish a t) =
          (.published true, { s with tags := s.tags.put a t, writes := s.writes + 1 }) := by
        rw [TagStore.serve, accepts, publish_of_open hs, hs, Bool.not_false]
      rw [hserve]
      exact h.concat rfl (Bool.or_false _).symm rfl rfl (Nat.add_right_comm ..)
  | get a => exact h.concat rfl (Bool.or_false _).symm rfl rfl rfl
  | list => exact h.concat rfl (Bool.or_false _).symm rfl rfl rfl
  | close => exact h.concat rfl (Bool.or_true _).symm rfl rfl rfl

/-! #### What a holder sees -/

/-- The store has as many entries as different symbols were taken in. -/
theorem Reflects.size {s : TagStore} {es : List Exchange} (h : s.Reflects es) :
    s.tags.size = ((acceptedIn es).map (·.1)).toFinset.card := by
  have hkeys : s.tags.keys.toFinset = ((acceptedIn es).map (·.1)).toFinset := by
    ext a
    rw [List.mem_toFinset, List.mem_toFinset, h.tags, SymbolMap.mem_keys_ofList]
  rw [← hkeys, List.toFinset_card_of_nodup s.tags.nodup_keys]
  exact (List.length_map _).symm

/-- It never has more of them than tags were taken in. -/
theorem Reflects.size_le {s : TagStore} {es : List Exchange} (h : s.Reflects es) :
    s.tags.size ≤ s.writes := by
  rw [h.size, h.accepted, ← List.length_map (·.1)]
  exact List.toFinset_card_le _

/-- The tag of a symbol is the one that was taken in for it last. -/
theorem Reflects.get? {s : TagStore} {es : List Exchange} (h : s.Reflects es) (a : Symbol) :
    s.get? a = (acceptedIn es).reverse.lookup a := by
  rw [TagStore.get?, h.tags, SymbolMap.ofList, SymbolMap.get?_foldl_put, SymbolMap.get?_empty,
    Option.or_none]

end TagStore

/-! ### Stores and handles -/

/-- Stores, and the handles by which they are held. -/
structure Holdings where
  stores : List TagStore := []
  /-- The number of the store that each handle holds. -/
  handles : List Nat := []

namespace Holdings

/-- What can be done with handles. -/
inductive Act where
  /-- A new store, and a handle to it. -/
  | create
  /-- One more handle to the store that a handle holds. -/
  | copy (handle : Nat)
  /-- A request by a handle. -/
  | ask (handle : Nat) (request : StoreRequest)

/-- Carries out an act, and says which exchange with a store it was. -/
def perform (w : Holdings) : Act → Holdings × List Exchange
  | .create => (⟨w.stores ++ [.empty], w.handles ++ [w.stores.length]⟩, [])
  | .copy h => (⟨w.stores, w.handles ++ w.handles[h]?.toList⟩, [])
  | .ask h r =>
    match w.handles[h]? with
    | none => (w, [])
    | some n =>
      match w.stores[n]? with
      | none => (w, [])
      | some s => (⟨w.stores.set n (s.serve r).2, w.handles⟩, [⟨n, r, (s.serve r).1⟩])

/-- Carries out acts, starting with nothing, and lists the exchanges. -/
def run (acts : List Act) : Holdings × List Exchange :=
  acts.foldl (fun (w, es) a => ((w.perform a).1, es ++ (w.perform a).2)) ({}, [])

theorem run_concat (acts : List Act) (a : Act) :
    run (acts ++ [a]) =
      (((run acts).1.perform a).1, (run acts).2 ++ ((run acts).1.perform a).2) := by
  rw [run, List.foldl_concat]
  rfl

/-- The exchanges with a store since its latest restart. -/
def current (es : List Exchange) (n : Nat) : List Exchange :=
  sinceRestart (es.filter (·.store = n))

/-- Every handle holds a store, and every store reflects the exchanges with it. -/
structure Accounted (w : Holdings) (es : List Exchange) : Prop where
  held : ∀ n ∈ w.handles, n < w.stores.length
  known : ∀ e ∈ es, e.store < w.stores.length
  reflects : ∀ n (s : TagStore), w.stores[n]? = some s → s.Reflects (current es n)

theorem current_concat (es : List Exchange) (e : Exchange) (n : Nat) :
    current (es ++ [e]) n =
      if e.store = n then sinceRestart (es.filter (·.store = n) ++ [e]) else current es n := by
  rw [current, List.filter_append, List.filter_singleton, current]
  by_cases h : e.store = n <;> simp [h]

theorem accounted_create {w : Holdings} {es : List Exchange} (h : w.Accounted es) :
    (w.perform .create).1.Accounted (es ++ (w.perform .create).2) := by
  have hlength : (w.stores ++ [TagStore.empty]).length = w.stores.length + 1 := List.length_append
  rw [perform, List.append_nil]
  refine ⟨fun n hn => ?_, fun e he => hlength ▸ Nat.lt_succ_of_lt (h.known e he), fun n s hs => ?_⟩
  · refine hlength ▸ Nat.lt_succ_of_le ?_
    rcases List.mem_append.1 hn with hn | hn
    · exact Nat.le_of_lt (h.held n hn)
    · exact Nat.le_of_eq (List.mem_singleton.1 hn)
  · rcases Nat.lt_or_ge n w.stores.length with hlt | hge
    · rw [List.getElem?_append_left hlt] at hs
      exact h.reflects n s hs
    · -- Nobody can have had an exchange with the new store.
      rw [List.getElem?_append_right hge, List.getElem?_singleton] at hs
      have hnone : es.filter (·.store = n) = [] := List.filter_eq_nil_iff.2 fun e he heq => by
        have := h.known e he
        have := of_decide_eq_true heq
        omega
      obtain rfl : TagStore.empty = s := by
        split at hs
        · exact Option.some.inj hs
        · cases hs
      rw [current, hnone]
      exact TagStore.reflects_empty

theorem accounted_copy {w : Holdings} {es : List Exchange} (h : w.Accounted es) (handle : Nat) :
    (w.perform (.copy handle)).1.Accounted (es ++ (w.perform (.copy handle)).2) := by
  rw [perform, List.append_nil]
  refine ⟨fun n hn => ?_, h.known, h.reflects⟩
  rcases List.mem_append.1 hn with hn | hn
  · exact h.held n hn
  · exact h.held n (List.mem_of_getElem? (Option.mem_toList.1 hn))

theorem accounted_ask {w : Holdings} {es : List Exchange} (h : w.Accounted es) (handle : Nat)
    (r : StoreRequest) :
    (w.perform (.ask handle r)).1.Accounted (es ++ (w.perform (.ask handle r)).2) := by
  unfold perform
  dsimp only
  split
  case h_1 => rwa [List.append_nil]
  case h_2 n hn =>
    split
    case h_1 => rwa [List.append_nil]
    case h_2 s hs =>
      have hlt : n < w.stores.length := h.held n (List.mem_of_getElem? hn)
      refine ⟨fun m hm => ?_, fun e he => ?_, fun m s' hs' => ?_⟩
      · rw [List.length_set]
        exact h.held m hm
      · rw [List.length_set]
        rcases List.mem_append.1 he with he | he
        · exact h.known e he
        · obtain rfl := List.mem_singleton.1 he
          exact hlt
      · rw [current_concat]
        by_cases hnm : n = m
        · subst hnm
          rw [List.getElem?_set_self hlt] at hs'
          obtain rfl := Option.some.inj hs'
          rw [if_pos rfl]
          exact (h.reflects n s hs).serve n r
        · rw [List.getElem?_set_ne hnm] at hs'
          rw [if_neg hnm]
          exact h.reflects m s' hs'

/-- One act keeps the accounts in order, and so does a run. -/
theorem accounted_perform {w : Holdings} {es : List Exchange} (h : w.Accounted es) (a : Act) :
    (w.perform a).1.Accounted (es ++ (w.perform a).2) := by
  cases a with
  | create => exact accounted_create h
  | copy handle => exact accounted_copy h handle
  | ask handle r => exact accounted_ask h handle r

theorem accounted_empty : Accounted {} [] := ⟨by simp, by simp, by simp⟩

theorem accounted_run (acts : List Act) : (run acts).1.Accounted (run acts).2 := by
  induction acts using List.reverseRecOn with
  | nil => exact accounted_empty
  | append_singleton acts a ih =>
    rw [run_concat]
    exact accounted_perform ih a

/-- What the holders of a store see of it, after any acts by them and by others. The tag of a symbol
is the one that was taken in for it last since the latest restart. A tag is turned away just if the
store has been closed since then, and then all entries stay as they are. The two counters add up to
the publications since the latest restart, and the first counts those that were taken in. There are as
many entries as different symbols among those, so never more than the first counter says. The entries
are listed in strictly ascending order, and they are the tags that a look-up finds. -/
theorem held_store (acts : List Act) (handle n : Nat)
    (hheld : (run acts).1.handles[handle]? = some n) :
    let now := current (run acts).2 n
    ∃ s : TagStore, (run acts).1.stores[n]? = some s ∧
      (∀ r, ((run acts).1.perform (.ask handle r)).2 = [⟨n, r, (s.serve r).1⟩]) ∧
      (∀ a, (s.serve (.get a)).1 = .found ((acceptedIn now).reverse.lookup a)) ∧
      (∀ a t, (s.serve (.publish a t)).1 = .published (!now.any Exchange.isClose)) ∧
      (∀ a t, (s.serve (.publish a t)).1 = .published false →
        (s.serve (.publish a t)).2.tags = s.tags) ∧
      s.writes + s.rejected = now.countP Exchange.isPublication ∧
      s.writes = now.countP Exchange.isAccepted ∧
      s.tags.size = ((acceptedIn now).map (·.1)).toFinset.card ∧ s.tags.size ≤ s.writes ∧
      ∃ entries, (s.serve .list).1 = .listed entries ∧ entries.Pairwise (·.1 < ·.1) ∧
        ∀ a t, (a, t) ∈ entries ↔ (s.serve (.get a)).1 = .found (some t) := by
  intro now
  obtain ⟨hheld', -, hreflects⟩ := accounted_run acts
  have hlt := hheld' n (List.mem_of_getElem? hheld)
  have h : ((run acts).1.stores[n]).Reflects now := hreflects n _ (List.getElem?_eq_getElem hlt)
  have hstore := List.getElem?_eq_getElem hlt
  refine ⟨_, hstore, fun r => ?_, fun a => ?_, fun a t => ?_, fun a t href => ?_, h.rejected,
    h.writes, h.size, h.size_le, _, rfl, SymbolMap.ascending _, fun a t => ?_⟩
  · simp only [perform, hheld, hstore]
  · exact congrArg StoreReply.found (h.get? a)
  · exact congrArg (fun b => StoreReply.published !b) h.isSealed
  · have hsealed : (run acts).1.stores[n].isSealed = true := by
      simpa [TagStore.serve, TagStore.accepts] using href
    rw [TagStore.serve, TagStore.publish_of_sealed hsealed]
  · rw [SymbolMap.mem_entries_iff, TagStore.serve, StoreReply.found.injEq, TagStore.get?]

/-- Two handles to one store, and a handle to another. The second holder restarts the first store and
later closes it. -/
def twoHolders : List Act := [.create, .copy 0, .create,
  .ask 0 (.publish ⟨"app.A#run()"⟩ ⟨.worker, .explicit⟩), .ask 1 .restart,
  .ask 1 (.publish ⟨"app.B#run()"⟩ ⟨.fx, .explicit⟩),
  .ask 0 (.publish ⟨"app.B#run()"⟩ ⟨.swing, .inherited⟩),
  .ask 2 (.publish ⟨"app.B#run()"⟩ ⟨.worker, .explicit⟩), .ask 1 .close,
  .ask 0 (.publish ⟨"app.A#run()"⟩ ⟨.any, .assumed⟩)]

/-- The tag that the first holder published last is the one that the second finds. What came before
the restart or after the closing is not there, and neither is what the other store took in. -/
theorem held_store_twoHolders :
    (run twoHolders).1.handles[1]? = some 0 ∧
      ∃ s : TagStore, (run twoHolders).1.stores[0]? = some s ∧
        (s.serve (.get ⟨"app.A#run()"⟩)).1 = .found none ∧
        (s.serve (.get ⟨"app.B#run()"⟩)).1 = .found (some ⟨.swing, .inherited⟩) ∧
        (s.serve (.publish ⟨"app.C#run()"⟩ ⟨.fx, .explicit⟩)).1 = .published false ∧
        s.writes + s.rejected = 3 ∧ s.writes = 2 ∧ s.tags.size = 1 := by
  have hheld : (run twoHolders).1.handles[1]? = some 0 := by decide
  obtain ⟨s, hs, -, hget, hpublish, -, htotal, hwrites, hsize, -, -⟩ := held_store _ _ _ hheld
  refine ⟨hheld, s, hs, (hget _).trans ?_, (hget _).trans ?_, (hpublish _ _).trans ?_,
    htotal.trans ?_, hwrites.trans ?_, hsize.trans ?_⟩ <;> decide

end Holdings

end ThreadAffinity
