import ModuleLoader.Proofs.Joining.Lasting
import ModuleLoader.Proofs.Joining.Outcome
import ModuleLoader.Proofs.Sharing

/-! Joining a retrieval, and asking when it is over. Two locators share a resource; the second one is asked
for while the resource is being retrieved for the first one, or afterwards. Both ways agree on whether the
two come to stand for one record, unless the retrieval was in vain. -/
namespace ModuleLoader

open Loader (Adds Lasts)

/-- A session has come to a machine, which comes to rest in a world. -/
structure Settles (setup : Setup) (m : Machine) (w : World) : Prop where
  run : ∃ past, Run (fun _ => True) (.fresh setup) past m
  finishes : ∃ fuel, Machine.run fuel m = ⟨w, []⟩

namespace Settles

variable {setup : Setup} {m : Machine} {w w' : World} {frame : Frame} {rest : List Frame} {n : Nat}

theorem next (settles : Settles setup ⟨w, frame :: rest⟩ w') :
    Settles setup ⟨(frame.exec w).1, (frame.exec w).2 ++ rest⟩ w' := by
  obtain ⟨⟨past, run⟩, fuel, finishes⟩ := settles
  cases fuel with
  | zero => cases finishes
  | succ fuel => exact ⟨⟨_, run.work (Machine.step?_cons w frame rest)⟩, fuel, finishes⟩

theorem still (settles : Settles setup ⟨w, []⟩ w') : w' = w := by
  obtain ⟨-, fuel, finishes⟩ := settles
  cases fuel <;> cases finishes <;> rfl

theorem rests (settles : Settles setup m w') : ∃ past, Run (fun _ => True) (.fresh setup) past ⟨w', []⟩ := by
  obtain ⟨⟨past, run⟩, fuel, finishes⟩ := settles
  exact ⟨_, finishes ▸ run.continued fuel⟩

theorem lasts (settles : Settles setup m w') (queued : setup.policy = .queued) (secluded : m.Secluded n) :
    Lasts m.world.loader w'.loader := by
  obtain ⟨⟨past, run⟩, fuel, finishes⟩ := settles
  have lasts := run.lasts queued secluded fuel
  rw [finishes] at lasts
  exact lasts

/-- Each step of the host settles if all of them come to rest. -/
theorem of_rest {past : List Machine} (run : Run (fun _ => True) (.fresh setup) past ⟨w, []⟩) {fuel : Nat}
    {action : Action} {actions : List Action} (rest : w.comesToRest fuel (action :: actions) = true) :
    Settles setup ⟨w, [.script .outer [action]]⟩ (w.perform fuel action) ∧
      (w.perform fuel action).comesToRest fuel actions = true := by
  rw [World.comesToRest, Bool.and_eq_true] at rest
  exact ⟨⟨⟨_, run.act action trivial⟩, fuel,
    congrArg (Machine.mk _) (List.isEmpty_iff.mp rest.1)⟩, rest.2⟩

end Settles

/-! Asking for a locator that is not registered. -/

namespace Loader

/-- A locator has begun to wait for its resource. -/
structure Enlists (l : Loader) (waiter : Waiter) (l' : Loader) : Prop where
  adds : Adds l waiter.locator l'
  fetching : l'.status ⟨l.records.size⟩ = .fetching
  config : l'.config = l.config
  resolver : l'.resolver = l.resolver
  anonymous : l'.anonymous = l.anonymous
  inFlight : l'.ledger.inFlight = l.ledger.inFlight.insert (l.resolver.physicalId waiter.locator)
    ((l.ledger.inFlight.get? (l.resolver.physicalId waiter.locator)).getD [] ++ [waiter])
  completed : l'.ledger.completed = l.ledger.completed.erase (l.resolver.physicalId waiter.locator)

variable {l : Loader} {k : Locator}

/-- What is not at hand is not found. -/
theorem retrieved?_missing {p : PhysicalId} (missing : ∀ r, ¬ l.AtHand p r) :
    (l.ensure k .fetching).1.retrieved? p k = none := by
  refine Option.eq_none_iff_forall_not_mem.mpr fun r found => ?_
  obtain ⟨⟨first, completed, there, fetched⟩, other⟩ := retrieved?_iff.mp found
  have apart : k ≠ first := fun here => other (here ▸ there)
  refine missing r ⟨first, (l.ensure_quiet k .fetching).ledger ▸ completed, ?_, ?_⟩
  · rw [entry_ensure, if_neg apart] at there
    exact there
  · obtain same | ⟨-, -, -, waits⟩ := l.ensure_status k .fetching r
    · exact same ▸ fetched
    · rw [waits] at fetched
      exact absurd fetched (by decide)

theorem enlists (absent : l.entry? k = none) (missing : ∀ r, ¬ l.AtHand (l.resolver.physicalId k) r)
    (b : BarrierId) : Enlists l ⟨k, b⟩ ((l.ensure k .fetching).1.awaitResource ⟨k, b⟩).1 := by
  have made := l.ensure_quiet k .fetching
  have unfound := retrieved?_missing (k := k) missing
  obtain ⟨registry, records, anonymous, firstNamed, completed⟩ :=
    (l.ensure k .fetching).1.awaitResource_missing ⟨k, b⟩ (made.resolver ▸ unfound)
  obtain ⟨config, resolver, -⟩ := (l.ensure k .fetching).1.awaitResource_base ⟨k, b⟩
  have inFlight : ((l.ensure k .fetching).1.awaitResource ⟨k, b⟩).1.ledger.inFlight =
      l.ledger.inFlight.insert (l.resolver.physicalId k)
        ((l.ledger.inFlight.get? (l.resolver.physicalId k)).getD [] ++ [⟨k, b⟩]) := by
    obtain ⟨known, found, -⟩ | ⟨waiters, -, flying, -, ledger⟩ | ⟨-, grounded, -, ledger⟩ :=
      (l.ensure k .fetching).1.awaitResource_cases ⟨k, b⟩
    · rw [made.resolver] at found
      cases unfound.symm.trans found
    · rw [ledger, made.ledger, made.resolver] at *
      rw [flying, Option.getD_some]
    · rw [ledger, made.ledger, made.resolver] at *
      rw [grounded, Option.getD_none, List.nil_append]
  generalize ((l.ensure k .fetching).1.awaitResource ⟨k, b⟩).1 = l' at *
  obtain ⟨z, held, -⟩ | ⟨-, same⟩ := l.ensure_cases k .fetching
  · cases absent.symm.trans held
  rw [same] at made registry records firstNamed anonymous completed config resolver
  have adds := l.made_adds k (s := .fetching) (by decide)
  have record (x : RecordId) : l'.record x = _ := congrArg (Table.get · x.index) records
  have here := (record ⟨l.records.size⟩).trans ((l.record_made k .fetching _).trans (if_pos rfl))
  refine ⟨⟨fun x => (congrArg (OrderedMap.get? · x) registry).trans (adds.entry x), ?_, ?_, ?_, ?_,
    fun x other => (record x).trans (adds.others x other), firstNamed⟩, ?_, config.trans made.config,
    resolver.trans made.resolver, anonymous, inFlight, completed⟩
  · rw [records]
    exact adds.size
  · rw [here]
  · rw [here]
  · rw [status, here]
    exact Status.noConfusion
  · rw [status, here]

end Loader

section

variable {setup : Setup} {w w' : World} {k : Locator} {tag : String}

/-- A load of one locator that is not registered comes to its only entry. -/
theorem Settles.opens (settles : Settles setup ⟨w, [.script .outer [.load [k] tag []]]⟩ w')
    (absent : w.loader.entry? k = none) : ∃ (callback : Callback) (opened : World) (reply : Conclusion),
      callback.body = [] ∧ opened.loader = (w.loader.newBarrier 1 (.call callback)).1 ∧
      opened.fetcher = w.fetcher ∧
      Settles setup ⟨(opened.enter k ⟨w.loader.barriers.size⟩).1, (opened.enter k ⟨w.loader.barriers.size⟩).2 ++
        [.entries [] ⟨w.loader.barriers.size⟩, .conclude .outer reply, .script .outer []]⟩ w' := by
  let asked : World := { w with issued := w.issued + 1 }
  let callback := (w.newCallback .outer tag []).2
  let opened : World := { asked with loader := (w.loader.newBarrier 1 (.call callback)).1 }
  have pending : [k].filter w.loader.needsLoading = [k] := by
    rw [List.filter_singleton, Loader.needsLoading, absent]
    rfl
  have load : asked.load [k] (.call callback) = (opened, [.entries [k] ⟨w.loader.barriers.size⟩]) := by
    unfold World.load
    dsimp only
    rw [pending]
    rfl
  refine ⟨callback, opened, .reply "load" (.text "returned"), rfl, rfl, rfl, ?_⟩
  have loading : Settles setup ⟨asked, [.load [k] (.call callback), .conclude .outer _, .script .outer []]⟩ w' :=
    settles.next
  have entering := loading.next
  rw [Frame.exec, load] at entering
  have entered := entering.next
  rw [Frame.exec, List.append_assoc] at entered
  exact entered

/-- An entry for which there is nothing waits, and the first one to wait asks the fetcher. -/
theorem World.enter_asks (absent : w.loader.entry? k = none)
    (missing : ∀ r, ¬ w.loader.AtHand (w.loader.resolver.physicalId k) r)
    (queued : w.fetcher.policy = .queued) (b : BarrierId) :
    (w.enter k b).2 = [] ∧ (w.enter k b).1.loader = w.asking k b ∧
      (w.enter k b).1.fetcher.files = w.fetcher.files ∧
      (w.enter k b).1.fetcher.queue =
        if (w.loader.ledger.inFlight.get? (w.loader.resolver.physicalId k)).isSome then w.fetcher.queue
        else w.fetcher.queue ++ [⟨w.loader.resolver.physicalId k, k⟩] := by
  have made := w.loader.ensure_quiet k .fetching
  have unfound := Loader.retrieved?_missing (k := k) missing
  have below : ¬ .fetched ≤ (w.loader.ensure k .fetching).1.status (w.loader.ensure k .fetching).2 := by
    obtain ⟨z, held, -⟩ | ⟨-, same⟩ := w.loader.ensure_cases k .fetching
    · cases absent.symm.trans held
    · rw [same, Loader.status, Loader.record_made, if_pos rfl]
      exact (by decide : ¬ Status.fetched ≤ .fetching)
  have await := (w.loader.ensure k .fetching).1.awaitResource_cases ⟨k, b⟩
  rw [← made.resolver, ← made.ledger]
  unfold World.enter World.asking
  dsimp only at await ⊢
  rw [if_neg below]
  obtain ⟨known, found, -⟩ | ⟨waiters, -, flying, start, -⟩ | ⟨-, grounded, start, -⟩ := await
  · rw [made.resolver] at found
    cases unfound.symm.trans found
  · rw [start, flying]
    exact ⟨rfl, rfl, rfl, rfl⟩
  · rw [start, grounded]
    unfold retrieve
    dsimp only
    rw [queued]
    exact ⟨rfl, rfl, rfl, rfl⟩

/-- A load of one locator has begun to wait, and the fetcher has been asked unless somebody waits already. -/
structure World.Asks (w : World) (k : Locator) (w' : World) : Prop where
  enlists : w.loader.Enlists ⟨k, ⟨w.loader.barriers.size⟩⟩ w'.loader
  barriers : ∃ callback : Callback, callback.body = [] ∧
    w'.loader.barriers = w.loader.barriers.push ⟨1, some (.call callback)⟩
  files : w'.fetcher.files = w.fetcher.files
  queue : w'.fetcher.queue =
    if (w.loader.ledger.inFlight.get? (w.loader.resolver.physicalId k)).isSome then w.fetcher.queue
    else w.fetcher.queue ++ [⟨w.loader.resolver.physicalId k, k⟩]

theorem Settles.asks (settles : Settles setup ⟨w, [.script .outer [.load [k] tag []]]⟩ w')
    (queued : w.fetcher.policy = .queued) (absent : w.loader.entry? k = none)
    (missing : ∀ r, ¬ w.loader.AtHand (w.loader.resolver.physicalId k) r) :
    w.Asks k w' := by
  obtain ⟨callback, opened, reply, silent, loader, fetcher, entered⟩ := settles.opens absent
  obtain ⟨frames, asking, files, queue⟩ := World.enter_asks (w := opened) (k := k)
    (by rw [loader]; exact absent) (by rw [loader]; exact missing) (by rw [fetcher]; exact queued)
    ⟨w.loader.barriers.size⟩
  rw [frames] at entered
  obtain rfl := entered.next.next.next.still
  obtain ⟨still, same, -⟩ := (opened.enter k ⟨w.loader.barriers.size⟩).1.conclude_same .outer reply
  have enlists := Loader.enlists (l := opened.loader) (k := k) (by rw [loader]; exact absent)
    (by rw [loader]; exact missing) ⟨w.loader.barriers.size⟩
  have barriers : (opened.asking k ⟨w.loader.barriers.size⟩).barriers = opened.loader.barriers :=
    (Loader.awaitResource_base _ ⟨k, _⟩).2.2.trans (opened.loader.ensure_quiet k .fetching).barriers
  rw [← World.asking] at enlists
  rw [← still.trans asking, loader] at enlists barriers
  rw [fetcher, ← same] at files
  rw [loader, fetcher, ← same] at queue
  obtain ⟨⟨entry, size, own, alone, known, others, named⟩, fetching, config, resolver, anonymous, inFlight,
    completed⟩ := enlists
  exact ⟨⟨⟨entry, size, own, alone, known, others, named⟩, fetching, config, resolver, anonymous, inFlight,
    completed⟩, ⟨callback, silent, barriers⟩, files, queue⟩

/-- No point is newer than all there are. -/
theorem Loader.secluded_size (l : Loader) : l.Secluded l.barriers.size := by
  refine ⟨Nat.le_refl _, fun {i next} newer waits => ?_⟩
  rw [Table.get, Array.getD_eq_getD_getElem?, Array.getElem?_eq_none newer] at waits
  cases waits

/-- An entry of a load registers its locator. -/
theorem World.enter_registered (sound : Loader.Sound w.loader) (queued : w.fetcher.policy = .queued)
    (k : Locator) (b : BarrierId) : (Loader.entry? (w.enter k b).1.loader k).isSome = true := by
  have enters := World.enters sound k b
  have later := (w.loader.ensure_becomes k).sound sound
  have asked (fetches : (w.loader.ensure k .fetching).1.Fetches k) :
      (Loader.entry? (w.asking k b) k).isSome = true := by
    obtain ⟨r, held, fetching⟩ := fetches
    exact (Loader.awaitResource_becomes ⟨k, b⟩ held fetching).renamed.registered
      (Option.isSome_iff_exists.mpr ⟨r, held⟩)
  generalize w.startedBy? k b = starts, w.enter k b = entered at enters
  cases enters with
  | landed held => exact Option.isSome_iff_exists.mpr ⟨_, held⟩
  | shared fetches | joined fetches => exact asked fetches
  | started fetches =>
    simp only [retrieve, queued]
    exact asked fetches

/-- A load for a callback that does nothing is apart from those before. -/
theorem Loader.Secluded.call {n : Nat} {l l' : Loader} {callback : Callback} (secluded : l.Secluded n)
    (barriers : l'.barriers = l.barriers.push ⟨1, some (.call callback)⟩) (silent : callback.body = []) :
    l'.Secluded n :=
  secluded.push barriers fun _ waits => by
    cases waits
    exact silent

/-- A later load of a locator whose resource is at hand gets what that has brought. -/
theorem Settles.shares (settles : Settles setup ⟨w, [.script .outer [.load [k] tag []]]⟩ w')
    (queued : setup.policy = .queued) : Lasts w.loader w'.loader ∧
      ∀ {r}, w.loader.AtHand (w.loader.resolver.physicalId k) r →
        w.loader.entry? k = none ∨ w.loader.entry? k = some r → w'.loader.entry? k = some r := by
  have secluded := w.loader.secluded_size
  have lasts : Lasts w.loader w'.loader :=
    settles.next.lasts queued ⟨secluded, List.forall_mem_cons.mpr ⟨rfl, List.forall_mem_cons.mpr
      ⟨trivial, List.forall_mem_singleton.mpr rfl⟩⟩⟩
  refine ⟨lasts, fun {r} atHand entry => ?_⟩
  obtain absent | there := entry
  · obtain ⟨past, run⟩ := settles.run
    obtain ⟨callback, opened, reply, silent, loader, fetcher, entered⟩ := settles.opens absent
    have policy : opened.fetcher.policy = .queued := by
      rw [fetcher]
      exact (lossless_always run queued).policy
    have sound : Loader.Sound opened.loader := by
      rw [loader]
      have same : Loader.Orderly w.loader (w.loader.newBarrier 1 (.call callback)).1 := .of_same rfl rfl rfl
      exact (same run.sound).1
    have begun : Lasts w.loader opened.loader := by
      rw [loader]
      exact .of_stays (.of_same rfl rfl rfl rfl rfl rfl rfl rfl)
    have enters := begun.trans (World.enter_lasts sound policy k ⟨w.loader.barriers.size⟩)
    have registered := World.enter_registered sound policy k ⟨w.loader.barriers.size⟩
    have newer : opened.loader.Secluded w.loader.barriers.size := by
      rw [loader]
      exact secluded.call rfl silent
    obtain ⟨loads, frames⟩ := World.enter_secluded sound policy newer k (b := ⟨w.loader.barriers.size⟩)
      (Nat.le_refl _)
    have rest := entered.lasts queued ⟨loads, List.forall_mem_append.mpr ⟨frames,
      List.forall_mem_cons.mpr ⟨Nat.le_refl _, List.forall_mem_cons.mpr
        ⟨trivial, List.forall_mem_singleton.mpr rfl⟩⟩⟩⟩
    obtain none | there := enters.shared atHand absent
    · rw [none] at registered
      cases registered
    · obtain ⟨_, _, _, fetched⟩ := enters.atHand atHand
      exact rest.held there fetched
  · obtain ⟨_, _, _, fetched⟩ := atHand
    exact lasts.held there fetched

/-! The end of the retrieval. -/

/-- A retrieval that is completed is over before anything else is loaded. -/
theorem Settles.completes {p : PhysicalId} {n : Nat} {token : FetchToken}
    (settles : Settles setup ⟨w, [.script .outer [.complete p]]⟩ w') (queued : setup.policy = .queued)
    (found : w.fetcher.queue.find? (·.resource = p) = some token) (secluded : w.loader.Secluded n)
    (newer : ∀ waiter ∈ (w.loader.ledger.inFlight.get? token.resource).getD [], n ≤ waiter.barrier.index) :
    Lasts (((w.fetcher.registrations token.resource).foldl Loader.define w.loader).finishFetch token).1
      w'.loader := by
  obtain ⟨past, run⟩ := settles.run
  have policy : w.fetcher.policy = .queued := (lossless_always run queued).policy
  let taken : World := { w with fetcher.queue := w.fetcher.queue.erase token }
  have takes : w.takeQueued? p = some (taken, token) := by
    rw [World.takeQueued?, found]
  have exec : (Frame.script .outer [.complete p]).exec w = (taken.evaluate token.resource,
      [.retrieved token, .conclude .outer (.reply "complete" (.flag true)), .script .outer []]) := by
    simp only [Frame.exec, World.runScript, World.act, World.completeTaken, takes, policy, ne_eq,
      not_true_eq_false, if_false, World.endsScript, Bool.false_eq_true]
    rfl
  have answered := settles.next
  rw [exec] at answered
  have calm := taken.evaluate_calm token.resource
  have quiet := (taken.evaluate token.resource).loader.finishFetch_quiet token
  refine answered.next.lasts queued (n := n) ⟨?_, List.forall_mem_append.mpr ⟨fun f member => ?_,
    List.forall_mem_cons.mpr ⟨trivial, List.forall_mem_singleton.mpr rfl⟩⟩⟩
  · exact secluded.of_barriers (quiet.barriers.trans calm.barriers)
  · obtain ⟨waiter, waits, rfl⟩ := List.mem_map.mp member
    refine newer waiter ?_
    have waits : waiter ∈ ((taken.evaluate token.resource).loader.ledger.inFlight.get?
      token.resource).getD [] := waits
    rw [calm.ledger] at waits
    exact waits

/-- What is not under way is not queued. -/
theorem Run.unqueued {past : List Machine} {p : PhysicalId} (run : Run (fun _ => True) (.fresh setup) past ⟨w, []⟩)
    (grounded : w.loader.ledger.inFlight.get? p = none) :
    w.fetcher.queue.find? (·.resource = p) = none := by
  have tracked := tracked_always run
  refine List.find?_eq_none.mpr fun token member here => ?_
  have flying := (tracked.flying p).mpr (List.mem_map.mpr ⟨token,
    tracked.outstanding.subset (List.mem_append_right _ (List.mem_append_left _ member)), of_decide_eq_true here⟩)
  rw [grounded] at flying
  cases flying

/-- There is nothing to complete for a resource that is not under way. -/
theorem Settles.idles {past : List Machine} {p : PhysicalId}
    (run : Run (fun _ => True) (.fresh setup) past ⟨w, []⟩)
    (settles : Settles setup ⟨w, [.script .outer [.complete p]]⟩ w') (queued : setup.policy = .queued)
    (grounded : w.loader.ledger.inFlight.get? p = none) :
    w'.loader = w.loader := by
  have policy : w.fetcher.policy = .queued := (lossless_always run queued).policy
  have takes : w.takeQueued? p = none := by
    rw [World.takeQueued?, run.unqueued grounded]
  have exec : (Frame.script .outer [.complete p]).exec w =
      (w, [.conclude .outer (.reply "complete" (.flag false)), .script .outer []]) := by
    simp only [Frame.exec, World.runScript, World.act, World.completeTaken, takes, policy, ne_eq,
      not_true_eq_false, if_false, World.endsScript, Bool.false_eq_true]
    rfl
  have refused := settles.next
  rw [exec] at refused
  rw [refused.next.next.still]
  rfl

end

/-! What a resource has to bring does not depend on who has begun to wait. -/

namespace Loader.Enlists

variable {l l' : Loader} {waiter : Waiter} {j k : Locator} {r : RecordId} {rs : List Registration}

theorem same (enlists : l.Enlists waiter l') (rs : List Registration) :
    (l'.BringsNothing rs ↔ l.BringsNothing rs) ∧ (∀ k, l'.ownIn? k rs = l.ownIn? k rs) ∧
      ∀ j k, l'.Hands rs j k ↔ l.Hands rs j k := by
  have named : l'.named? = l.named? := funext fun registration => by
    simp only [named?, resolve, enlists.resolver, enlists.config]
  simp only [BringsNothing, Hands, ownIn?, unnamedIn, firstIn?, named, enlists.anonymous, enlists.adds.named,
    implies_true, and_self]

theorem flying (enlists : l.Enlists waiter l') : l'.ledger.inFlight.isEmpty = false := by
  have found : (l'.ledger.inFlight.get? (l.resolver.physicalId waiter.locator)).isSome = true := by
    rw [enlists.inFlight, OrderedMap.get?_insert, if_pos rfl]
    rfl
  exact OrderedMap.isEmpty_of_found found

/-- The locator is being retrieved from now on. -/
theorem retrieving (enlists : l.Enlists waiter l') (before : Sound l) (sound : Sound l') :
    Retrieving l' waiter.locator ⟨l.records.size⟩ := by
  have adds := enlists.adds
  refine ⟨sound, (adds.entry _).trans (if_pos rfl), fun j there => ?_, adds.own, enlists.fetching,
    enlists.flying⟩
  rw [adds.entry] at there
  split at there
  · rename_i here
    exact here.symm
  · exact absurd rfl (Renames.not_new (index_lt_of_known (before.known there)))

/-- Who is being retrieved is so while another locator begins to wait. -/
theorem keeps (enlists : l.Enlists waiter l') (absent : l.entry? waiter.locator = none) (sound : Sound l')
    (retrieving : Retrieving l k r) : Retrieving l' k r := by
  have adds := enlists.adds
  have old := Renames.not_new (index_lt_of_known (retrieving.sound.known retrieving.entry))
  have other : waiter.locator ≠ k := by
    rintro rfl
    cases absent.symm.trans retrieving.entry
  refine ⟨sound, (adds.entry _).trans ((if_neg other).trans retrieving.entry), fun j there => ?_, ?_, ?_,
    enlists.flying⟩
  · rw [adds.entry] at there
    split at there
    · cases there
      exact absurd rfl old
    · exact retrieving.lone j there
  · rw [adds.others r old]
    exact retrieving.own
  · rw [status, adds.others r old]
    exact retrieving.fetching

end Loader.Enlists

/-! Two locators of one resource. -/

/-- Two locators stand for one and the same record. -/
def World.Unites (w : World) (k₁ k₂ : Locator) : Prop :=
  ∃ r, w.loader.entry? k₁ = some r ∧ w.loader.entry? k₂ = some r

/-- A resource is not at hand, it has nothing to register, and nothing was left from before that its
retrieval could bring. -/
def World.InVain (w : World) (p : PhysicalId) : Prop :=
  (∀ r, ¬ w.loader.AtHand p r) ∧ w.loader.BringsNothing (w.fetcher.registrations p)

theorem World.unites_iff {w : World} {k₁ k₂ : Locator} {x y : RecordId} (one : w.loader.entry? k₁ = some x)
    (other : w.loader.entry? k₂ = some y) : w.Unites k₁ k₂ ↔ x = y := by
  rw [World.Unites, one, other]
  refine ⟨fun ⟨r, here, there⟩ => ?_, fun same => ⟨x, rfl, same ▸ rfl⟩⟩
  exact (Option.some.inj here).trans (Option.some.inj there).symm

section

variable {setup : Setup} {past : List Machine} {w asked : World} {p : PhysicalId} {k₁ k₂ : Locator}
  {tag₁ tag₂ : String}

/-- The resource of a locator that has begun to wait is under way for it, and not at hand. -/
theorem World.Asks.flies (asks : w.Asks k₁ asked) (of : w.loader.resolver.physicalId k₁ = p)
    (grounded : w.loader.ledger.inFlight.get? p = none) :
    asked.loader.ledger.inFlight.get? p = some [⟨k₁, ⟨w.loader.barriers.size⟩⟩] ∧
      ∀ r, ¬ asked.loader.AtHand p r := by
  have enlists := asks.enlists
  subst of
  refine ⟨?_, ?_⟩
  · rw [enlists.inFlight, OrderedMap.get?_insert, if_pos rfl, grounded]
    rfl
  · rintro r ⟨first, completed, -⟩
    rw [enlists.completed, OrderedMap.get?_erase, if_pos rfl] at completed
    cases completed

variable {w₁ w₂ w₃ : World}

/-- Two locators that wait for one retrieval come to stand for one record if it brings anything, unless the
resource has a module of its own for the second one that is not the one handed to the first. -/
theorem joined_unites (run : Run (fun _ => True) (.fresh setup) past ⟨w, []⟩) (queued : setup.policy = .queued)
    (apart : k₁ ≠ k₂) (of₁ : w.loader.resolver.physicalId k₁ = p) (of₂ : w.loader.resolver.physicalId k₂ = p)
    (absent₁ : w.loader.entry? k₁ = none) (absent₂ : w.loader.entry? k₂ = none)
    (grounded : w.loader.ledger.inFlight.get? p = none) (missing : ∀ r, ¬ w.loader.AtHand p r)
    (first : Settles setup ⟨w, [.script .outer [.load [k₁] tag₁ []]]⟩ w₁)
    (second : Settles setup ⟨w₁, [.script .outer [.load [k₂] tag₂ []]]⟩ w₂)
    (third : Settles setup ⟨w₂, [.script .outer [.complete p]]⟩ w₃) :
    let rs := w.fetcher.registrations p
    w₃.Unites k₁ k₂ ↔ ¬ w.loader.BringsNothing rs ∧
      (w.loader.ownIn? k₂ rs = none ∨ w.loader.Hands rs k₁ k₂) := by
  intro rs
  obtain ⟨past₁, run₁⟩ := first.rests
  obtain ⟨past₂, run₂⟩ := second.rests
  have asks₁ := first.asks (lossless_always run queued).policy absent₁ (of₁ ▸ missing)
  obtain ⟨flying₁, missing₁⟩ := asks₁.flies of₁ grounded
  have enlists₁ := asks₁.enlists
  have absent₂' : w₁.loader.entry? k₂ = none := (enlists₁.adds.entry k₂).trans ((if_neg apart).trans absent₂)
  have of₂' : w₁.loader.resolver.physicalId k₂ = p := enlists₁.resolver ▸ of₂
  have asks₂ := second.asks (lossless_always run₁ queued).policy absent₂' (of₂' ▸ missing₁)
  have enlists₂ := asks₂.enlists
  have retrieving := enlists₂.keeps absent₂' run₂.sound (enlists₁.retrieving run.sound run₁.sound)
  have flying₂ : w₂.loader.ledger.inFlight.get? p =
      some [⟨k₁, ⟨w.loader.barriers.size⟩⟩, ⟨k₂, ⟨w₁.loader.barriers.size⟩⟩] := by
    rw [enlists₂.inFlight, OrderedMap.get?_insert, if_pos of₂', of₂', flying₁]
    rfl
  -- The fetcher has been asked once, for the first of them.
  have found : w₂.fetcher.queue.find? (·.resource = p) = some ⟨p, k₁⟩ := by
    rw [asks₂.queue, of₂', flying₁, Option.isSome_some, if_pos rfl, asks₁.queue, of₁, grounded,
      Option.isSome_none, if_neg Bool.false_ne_true, List.find?_append, run.unqueued grounded]
    simp
  have files : w₂.fetcher.registrations p = rs :=
    Fetcher.registrations_of_files (asks₂.files.trans asks₁.files) p
  have registers := Loader.Registers.all run₂.sound retrieving.flying rs
  have second' := enlists₂.retrieving run₁.sound run₂.sound
  have vacant : w₂.loader.Vacant k₂ := fun x there => by
    cases second'.entry.symm.trans there
    exact ⟨second'.fetching, second'.lone⟩
  have joiners : (rs.foldl Loader.define w₂.loader).joiners ⟨p, k₁⟩ = [k₂] := by
    rw [Loader.joiners, registers.quiet.ledger, flying₂]
    simp [apart.symm]
  obtain ⟨x, y, here, there, fetched, done, same⟩ := registers.joined ⟨p, k₁⟩ retrieving apart.symm
    vacant (Option.isSome_iff_exists.mpr ⟨_, second'.entry⟩) joiners
  obtain ⟨callback₁, silent₁, barriers₁⟩ := asks₁.barriers
  obtain ⟨callback₂, silent₂, barriers₂⟩ := asks₂.barriers
  have secluded₁ := w.loader.secluded_size.call barriers₁ silent₁
  have lasts := third.completes queued found (secluded₁.call barriers₂ silent₂) <| by
    rw [flying₂, Option.getD_some]
    exact List.forall_mem_cons.mpr ⟨Nat.le_refl _, List.forall_mem_singleton.mpr secluded₁.size⟩
  rw [files] at lasts
  obtain ⟨nothing₁, own₁, hands₁⟩ := enlists₁.same rs
  obtain ⟨nothing₂, own₂, hands₂⟩ := enlists₂.same rs
  refine (World.unites_iff (lasts.held here fetched) (lasts.held there done)).trans (same.trans ?_)
  rw [nothing₂, nothing₁, own₂, own₁, hands₂, hands₁]

/-- A locator that is asked for when a retrieval is over stands for the same record as its locator, unless
the resource has a module of its own for it that is not the one handed to that locator. -/
theorem late_unites (run : Run (fun _ => True) (.fresh setup) past ⟨w, []⟩) (queued : setup.policy = .queued)
    (apart : k₁ ≠ k₂) (of₁ : w.loader.resolver.physicalId k₁ = p) (of₂ : w.loader.resolver.physicalId k₂ = p)
    (absent₁ : w.loader.entry? k₁ = none) (absent₂ : w.loader.entry? k₂ = none)
    (grounded : w.loader.ledger.inFlight.get? p = none) (missing : ∀ r, ¬ w.loader.AtHand p r)
    (first : Settles setup ⟨w, [.script .outer [.load [k₁] tag₁ []]]⟩ w₁)
    (second : Settles setup ⟨w₁, [.script .outer [.complete p]]⟩ w₂)
    (third : Settles setup ⟨w₂, [.script .outer [.load [k₂] tag₂ []]]⟩ w₃) :
    let rs := w.fetcher.registrations p
    w₃.Unites k₁ k₂ ↔ w.loader.ownIn? k₂ rs = none ∨ w.loader.Hands rs k₁ k₂ := by
  intro rs
  obtain ⟨past₁, run₁⟩ := first.rests
  have asks := first.asks (lossless_always run queued).policy absent₁ (of₁ ▸ missing)
  obtain ⟨flying, -⟩ := asks.flies of₁ grounded
  have enlists := asks.enlists
  have absent₂' : w₁.loader.entry? k₂ = none := (enlists.adds.entry k₂).trans ((if_neg apart).trans absent₂)
  have of₂' : w₁.loader.resolver.physicalId k₂ = p := enlists.resolver ▸ of₂
  have retrieving := enlists.retrieving run.sound run₁.sound
  have found : w₁.fetcher.queue.find? (·.resource = p) = some ⟨p, k₁⟩ := by
    rw [asks.queue, of₁, grounded, Option.isSome_none, if_neg Bool.false_ne_true, List.find?_append,
      run.unqueued grounded]
    simp
  have files : w₁.fetcher.registrations p = rs := Fetcher.registrations_of_files asks.files p
  have registers := Loader.Registers.all run₁.sound retrieving.flying rs
  have joiners : (rs.foldl Loader.define w₁.loader).joiners ⟨p, k₁⟩ = [] := by
    rw [Loader.joiners, registers.quiet.ledger, flying]
    simp
  obtain ⟨x, here, fetched, alone, own⟩ := registers.unasked ⟨p, k₁⟩ (k := k₂) retrieving absent₂'
    joiners
  obtain ⟨callback, silent, barriers⟩ := asks.barriers
  have ends := second.completes queued found (w.loader.secluded_size.call barriers silent) <| by
    rw [flying, Option.getD_some]
    exact List.forall_mem_singleton.mpr (Nat.le_refl _)
  rw [files] at ends
  have quiet := (rs.foldl Loader.define w₁.loader).finishFetch_quiet ⟨p, k₁⟩
  have resolver := quiet.resolver.trans registers.quiet.resolver
  have completed : (Loader.finishFetch (rs.foldl Loader.define w₁.loader) ⟨p, k₁⟩).1.ledger.completed.get? p =
      some k₁ := by
    rw [quiet.ledger]
    exact (OrderedMap.get?_insert ..).trans (if_pos rfl)
  generalize (Loader.finishFetch (rs.foldl Loader.define w₁.loader) ⟨p, k₁⟩).1 = ended at *
  obtain ⟨later, shares⟩ := third.shares queued
  have lasts := ends.trans later
  obtain ⟨-, owns, hands⟩ := enlists.same rs
  rw [← owns, ← hands]
  by_cases named : w₁.loader.ownIn? k₂ rs = none
  · have atHand : ended.AtHand (ended.resolver.physicalId k₂) x := by
      rw [show ended.resolver = w₁.loader.resolver from resolver, of₂']
      exact ⟨k₁, completed, here, fetched⟩
    have entry := ends.shared atHand (alone named)
    exact iff_of_true ⟨x, lasts.held here fetched, shares (ends.resolver ▸ ends.atHand atHand) entry⟩ (.inl named)
  · obtain ⟨y, there, done, same⟩ := own named
    rw [World.unites_iff (lasts.held here fetched) (lasts.held there done), same]
    exact ⟨.inr, fun either => either.resolve_left named⟩

/-- A resource that is at hand is not under way. -/
theorem Run.landed (run : Run (fun _ => True) (.fresh setup) past ⟨w, []⟩) {r : RecordId}
    (atHand : w.loader.AtHand p r) : w.loader.ledger.inFlight.get? p = none := by
  obtain ⟨first, completed, -⟩ := atHand
  refine Option.eq_none_iff_forall_not_mem.mpr fun waiters flying => ?_
  cases ((coherent_always run).apart flying).symm.trans completed

/-- Whoever asks for a resource that is at hand gets it. -/
theorem atHand_unites (queued : setup.policy = .queued) (of₁ : w.loader.resolver.physicalId k₁ = p)
    (of₂ : w.loader.resolver.physicalId k₂ = p) (absent₁ : w.loader.entry? k₁ = none)
    (absent₂ : w.loader.entry? k₂ = none) {r : RecordId} (atHand : w.loader.AtHand p r)
    (first : Settles setup ⟨w, [.script .outer [.load [k₁] tag₁ []]]⟩ w₁) (tag₂ : String) :
    (∀ w₂ w₃, Settles setup ⟨w₁, [.script .outer [.load [k₂] tag₂ []]]⟩ w₂ →
      Settles setup ⟨w₂, [.script .outer [.complete p]]⟩ w₃ → w₃.Unites k₁ k₂) ∧
    ∀ w₂ w₃, Settles setup ⟨w₁, [.script .outer [.complete p]]⟩ w₂ →
      Settles setup ⟨w₂, [.script .outer [.load [k₂] tag₂ []]]⟩ w₃ → w₃.Unites k₁ k₂ := by
  obtain ⟨past₁, run₁⟩ := first.rests
  obtain ⟨lasts₁, shares₁⟩ := first.shares queued
  have here := shares₁ (of₁.symm ▸ atHand) (.inl absent₁)
  have entry := lasts₁.shared (of₂.symm ▸ atHand) absent₂
  have atHand₁ := lasts₁.atHand atHand
  have of₂' : w₁.loader.resolver.physicalId k₂ = p := lasts₁.resolver ▸ of₂
  have fetched : .fetched ≤ w₁.loader.status r := by
    obtain ⟨_, _, _, fetched⟩ := atHand₁
    exact fetched
  have joins {w₂ : World} (second : Settles setup ⟨w₁, [.script .outer [.load [k₂] tag₂ []]]⟩ w₂) :
      w₂.loader.AtHand p r ∧ w₂.Unites k₁ k₂ := by
    obtain ⟨lasts₂, shares₂⟩ := second.shares queued
    exact ⟨lasts₂.atHand atHand₁, r, lasts₂.held here fetched, shares₂ (of₂'.symm ▸ atHand₁) entry⟩
  refine ⟨fun w₂ w₃ second third => ?_, fun w₂ w₃ second third => ?_⟩
  · obtain ⟨past₂, run₂⟩ := second.rests
    obtain ⟨atHand₂, unites⟩ := joins second
    rw [World.Unites, third.idles run₂ queued (run₂.landed atHand₂)]
    exact unites
  · have same := second.idles run₁ queued (run₁.landed atHand₁)
    obtain ⟨-, shares⟩ := third.shares queued
    obtain ⟨lasts, -⟩ := third.shares queued
    rw [same] at shares lasts
    exact ⟨r, lasts.held here fetched, shares (of₂'.symm ▸ atHand₁) entry⟩

/-- The host asks for two locators and completes the retrieval of their resource. -/
def joining (k₁ k₂ : Locator) (p : PhysicalId) (tag₁ tag₂ : String) : Script :=
  [.load [k₁] tag₁ [], .load [k₂] tag₂ [], .complete p]

/-- The host asks for the second locator when the retrieval is over. -/
def following (k₁ k₂ : Locator) (p : PhysicalId) (tag₁ tag₂ : String) : Script :=
  [.load [k₁] tag₁ [], .complete p, .load [k₂] tag₂ []]

/-- Two locators that are not registered have one resource, which is not under way. Joining its retrieval and
asking when it is over agree on whether the locators come to stand for one record, if and only if the
retrieval is not in vain. -/
theorem joining_as_following_iff {host : Action → Prop} (queued : setup.policy = .queued)
    (run : Run host (.fresh setup) past ⟨w, []⟩) (apart : k₁ ≠ k₂)
    (of₁ : setup.resolver.physicalId k₁ = p) (of₂ : setup.resolver.physicalId k₂ = p)
    (absent₁ : w.loader.entry? k₁ = none) (absent₂ : w.loader.entry? k₂ = none)
    (grounded : w.loader.ledger.inFlight.get? p = none) (tag₁ tag₂ : String) (fuel : Nat)
    (joins : w.comesToRest fuel (joining k₁ k₂ p tag₁ tag₂) = true)
    (follows : w.comesToRest fuel (following k₁ k₂ p tag₁ tag₂) = true) :
    (((joining k₁ k₂ p tag₁ tag₂).foldl (World.perform fuel) w).Unites k₁ k₂ ↔
      ((following k₁ k₂ p tag₁ tag₂).foldl (World.perform fuel) w).Unites k₁ k₂) ↔ ¬ w.InVain p := by
  have run : Run (fun _ => True) (.fresh setup) past ⟨w, []⟩ := run.mono fun _ _ => trivial
  rw [← resolver_always run] at of₁ of₂
  obtain ⟨first, joins⟩ := Settles.of_rest run joins
  obtain ⟨past₁, run₁⟩ := first.rests
  obtain ⟨second, joins⟩ := Settles.of_rest run₁ joins
  obtain ⟨past₂, run₂⟩ := second.rests
  obtain ⟨third, -⟩ := Settles.of_rest run₂ joins
  obtain ⟨-, follows⟩ := Settles.of_rest run follows
  obtain ⟨second', follows⟩ := Settles.of_rest run₁ follows
  obtain ⟨past₂', run₂'⟩ := second'.rests
  obtain ⟨third', -⟩ := Settles.of_rest run₂' follows
  by_cases missing : ∀ r, ¬ w.loader.AtHand p r
  · have joined := joined_unites run queued apart of₁ of₂ absent₁ absent₂ grounded missing first second third
    have late := late_unites run queued apart of₁ of₂ absent₁ absent₂ grounded missing first second' third'
    have unnamed : w.loader.BringsNothing (w.fetcher.registrations p) →
        w.loader.ownIn? k₂ (w.fetcher.registrations p) = none := by
      rintro ⟨empty, -⟩
      rw [empty]
      rfl
    dsimp only at joined late
    simp only [joining, following, List.foldl_cons, List.foldl_nil]
    rw [joined, late, World.InVain, and_iff_right missing]
    exact ⟨fun agree vain => (agree.mpr (.inl (unnamed vain))).1 vain, and_iff_right⟩
  · rw [not_forall] at missing
    obtain ⟨r, atHand⟩ := missing
    have atHand := not_not.mp atHand
    obtain ⟨both, either⟩ := atHand_unites queued of₁ of₂ absent₁ absent₂ atHand first tag₂
    exact iff_of_true (iff_of_true (both _ _ second third) (either _ _ second' third'))
      fun vain => vain.1 r atHand

end

/-- Nobody shares what a retrieval in vain has left, except who asks for it later. -/
theorem joining_in_vain_differs :
    ¬ ∀ (setup : Setup) (past : List Machine) (w : World) (p : PhysicalId) (k₁ k₂ : Locator) (fuel : Nat),
      setup.policy = .queued → Run (fun _ => True) (.fresh setup) past ⟨w, []⟩ → k₁ ≠ k₂ →
      setup.resolver.physicalId k₁ = p → setup.resolver.physicalId k₂ = p →
      w.loader.entry? k₁ = none → w.loader.entry? k₂ = none → w.loader.ledger.inFlight.get? p = none →
      w.comesToRest fuel (joining k₁ k₂ p "first" "second") = true →
      w.comesToRest fuel (following k₁ k₂ p "first" "second") = true →
      (((joining k₁ k₂ p "first" "second").foldl (World.perform fuel) w).Unites k₁ k₂ ↔
        ((following k₁ k₂ p "first" "second").foldl (World.perform fuel) w).Unites k₁ k₂) := by
  intro agree
  have late : World.Unites ((following ⟨"page:/lib/z"⟩ ⟨"page:/v1/z"⟩ ⟨"page:/lib/z"⟩ "first" "second").foldl
      (World.perform 20) (.start .versioned)) ⟨"page:/lib/z"⟩ ⟨"page:/v1/z"⟩ :=
    ⟨⟨0⟩, by decide +kernel, by decide +kernel⟩
  obtain ⟨r, here, there⟩ := (agree .versioned [] (.start .versioned) ⟨"page:/lib/z"⟩ ⟨"page:/lib/z"⟩
    ⟨"page:/v1/z"⟩ 20 rfl .start (by decide) (by decide +kernel) (by decide +kernel) (by decide +kernel)
    (by decide +kernel) (by decide +kernel) (by decide +kernel) (by decide +kernel)).mpr late
  exact absurd (here.trans there.symm) (by decide +kernel)

theorem joining_as_following_iff_versioned : ∃ w, w = World.start .versioned ∧
    (((joining ⟨"page:/lib/x"⟩ ⟨"page:/v1/x"⟩ ⟨"page:/lib/x"⟩ "" "").foldl (World.perform 20) w).Unites
        ⟨"page:/lib/x"⟩ ⟨"page:/v1/x"⟩ ↔
      ((following ⟨"page:/lib/x"⟩ ⟨"page:/v1/x"⟩ ⟨"page:/lib/x"⟩ "" "").foldl (World.perform 20) w).Unites
        ⟨"page:/lib/x"⟩ ⟨"page:/v1/x"⟩) ∧
    ¬ (((joining ⟨"page:/lib/z"⟩ ⟨"page:/v1/z"⟩ ⟨"page:/lib/z"⟩ "" "").foldl (World.perform 20) w).Unites
        ⟨"page:/lib/z"⟩ ⟨"page:/v1/z"⟩ ↔
      ((following ⟨"page:/lib/z"⟩ ⟨"page:/v1/z"⟩ ⟨"page:/lib/z"⟩ "" "").foldl (World.perform 20) w).Unites
        ⟨"page:/lib/z"⟩ ⟨"page:/v1/z"⟩) := by
  have fresh : Run (fun _ => True) (.fresh .versioned) [] ⟨.start .versioned, []⟩ := .start
  have brings := joining_as_following_iff rfl fresh
    (show (⟨"page:/lib/x"⟩ : Locator) ≠ ⟨"page:/v1/x"⟩ by decide) (p := ⟨"page:/lib/x"⟩) (by decide +kernel)
    (by decide +kernel) (by decide +kernel) (by decide +kernel) (by decide +kernel) "" "" 20
    (by decide +kernel) (by decide +kernel)
  have lacks := joining_as_following_iff rfl fresh
    (show (⟨"page:/lib/z"⟩ : Locator) ≠ ⟨"page:/v1/z"⟩ by decide) (p := ⟨"page:/lib/z"⟩) (by decide +kernel)
    (by decide +kernel) (by decide +kernel) (by decide +kernel) (by decide +kernel) "" "" 20
    (by decide +kernel) (by decide +kernel)
  have absent : (World.start .versioned).loader.ledger.completed.get? ⟨"page:/lib/z"⟩ = none := by
    decide +kernel
  refine ⟨_, rfl, brings.mpr fun vain => ?_, fun agree => lacks.mp agree ⟨?_, ?_, ?_, ?_⟩⟩
  · exact absurd (List.isEmpty_iff.mpr vain.2.1) (by decide +kernel)
  · rintro r ⟨first, completed, -⟩
    cases absent.symm.trans completed
  · exact List.isEmpty_iff.mp (by decide +kernel)
  · exact Option.isNone_iff_eq_none.mp (by decide +kernel)
  · decide +kernel

end ModuleLoader
