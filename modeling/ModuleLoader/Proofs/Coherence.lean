import ModuleLoader.Proofs.Effects.Founded
import ModuleLoader.Proofs.Retrieval

/-! The ledger, the registry and the fetcher's queue agree. A resource is under way or finished, those who
wait for it wait for this resource, and no locator is left waiting for a retrieval that has ended. -/
namespace ModuleLoader

open Loader (Sound Orderly)

/-- The ledger has no contradictions, and it expects all that the registry shows as being retrieved. -/
structure Loader.Coherent (l : Loader) : Prop where
  apart : ∀ {p waiters}, l.ledger.inFlight.get? p = some waiters → l.ledger.completed.get? p = none
  waited : ∀ {p waiters}, l.ledger.inFlight.get? p = some waiters →
    waiters ≠ [] ∧ ∀ waiter ∈ waiters, l.resolver.physicalId waiter.locator = p
  expected : ∀ {locator}, l.Fetches locator → l.Expects locator

namespace Loader.Coherent

variable {l l' : Loader}

/-- The ledger stays, and nothing is retrieved anew without being waited for. -/
theorem carried (coherent : l.Coherent) (ledger : l'.ledger = l.ledger)
    (resolver : l'.resolver = l.resolver)
    (steady : ∀ {locator}, l'.Fetches locator → l.Fetches locator ∨ l'.Expects locator) :
    l'.Coherent := by
  refine ⟨fun flying => ?_, fun flying => ?_, fun fetches => ?_⟩
  · rw [ledger] at flying ⊢
    exact coherent.apart flying
  · rw [ledger] at flying
    rw [resolver]
    exact coherent.waited flying
  · obtain before | expected := steady fetches
    · rw [Expects, ledger, resolver]
      exact coherent.expected before
    · exact expected

/-- Someone begins to wait for a resource, alone or with others. -/
theorem awaited (coherent : l.Coherent) {waiter : Waiter} {waiters : List Waiter}
    (before : l.ledger.inFlight.get? (l.resolver.physicalId waiter.locator) = some waiters ∨
      l.ledger.inFlight.get? (l.resolver.physicalId waiter.locator) = none ∧ waiters = [])
    (ledger : l'.ledger =
      ⟨l.ledger.inFlight.insert (l.resolver.physicalId waiter.locator) (waiters ++ [waiter]),
        l.ledger.completed.erase (l.resolver.physicalId waiter.locator)⟩)
    (resolver : l'.resolver = l.resolver)
    (steady : ∀ {locator}, l'.Fetches locator → l.Fetches locator ∨ l'.Expects locator) :
    l'.Coherent := by
  refine ⟨fun {p _} flying => ?_, fun {p joined} flying => ?_, fun {locator} fetches => ?_⟩
  · rw [ledger] at flying ⊢
    rw [OrderedMap.get?_insert] at flying
    rw [OrderedMap.get?_erase]
    split at flying
    · exact if_pos ‹_›
    · rw [if_neg ‹_›]
      exact coherent.apart flying
  · rw [ledger, OrderedMap.get?_insert] at flying
    rw [resolver]
    split at flying
    · rename_i here
      cases flying
      refine ⟨by simp, List.forall_mem_append.mpr ⟨?_, by simpa using here⟩⟩
      obtain under | ⟨-, rfl⟩ := before
      · exact fun waiter member => here ▸ (coherent.waited under).2 waiter member
      · exact List.forall_mem_nil _
    · exact coherent.waited flying
  · obtain earlier | expected := steady fetches
    · obtain ⟨others, flying, member⟩ := coherent.expected earlier
      rw [Expects, ledger, resolver]
      by_cases here : l.resolver.physicalId waiter.locator = l.resolver.physicalId locator
      · refine ⟨waiters ++ [waiter], by rw [OrderedMap.get?_insert, if_pos here], ?_⟩
        rw [here, flying] at before
        obtain same | ⟨none, -⟩ := before
        · cases same
          rw [List.map_append]
          exact List.mem_append_left _ member
        · cases none
      · exact ⟨others, by rw [OrderedMap.get?_insert, if_neg here, flying], member⟩
    · exact expected

/-- A retrieval is over, and nobody goes on waiting for it. -/
theorem finished (coherent : l.Coherent) {token : FetchToken}
    (ledger : l'.ledger = ⟨l.ledger.inFlight.erase token.resource,
      l.ledger.completed.insert token.resource token.locator⟩)
    (resolver : l'.resolver = l.resolver)
    (steady : ∀ {locator}, l'.Fetches locator → l.Fetches locator ∨ l'.Expects locator)
    (ends : ∀ waiter ∈ (l.ledger.inFlight.get? token.resource).getD [], ¬ l'.Fetches waiter.locator) :
    l'.Coherent := by
  have others {p : PhysicalId} {waiters : List Waiter} (flying : l'.ledger.inFlight.get? p = some waiters) :
      token.resource ≠ p ∧ l.ledger.inFlight.get? p = some waiters := by
    rw [ledger] at flying
    exact OrderedMap.get?_erase_eq_some.mp flying
  refine ⟨fun flying => ?_, fun flying => ?_, fun {locator} fetches => ?_⟩
  · obtain ⟨other, flying⟩ := others flying
    rw [ledger, OrderedMap.get?_insert, if_neg other]
    exact coherent.apart flying
  · rw [resolver]
    exact coherent.waited (others flying).2
  · obtain earlier | expected := steady fetches
    · obtain ⟨waiters, flying, member⟩ := coherent.expected earlier
      by_cases here : token.resource = l.resolver.physicalId locator
      · obtain ⟨waiter, waited, rfl⟩ := List.mem_map.mp member
        refine absurd fetches (ends waiter ?_)
        rw [here, flying]
        exact waited
      · refine ⟨waiters, ?_, member⟩
        rw [ledger, resolver, OrderedMap.get?_erase, if_neg here]
        exact flying
    · exact expected

/-- Whatever the effect of a frame, ledger and registry go on to agree. -/
theorem effect {w w' : World} {frame : Frame} {frames : List Frame} {o : Occurrence}
    (coherent : w.loader.Coherent) (effect : Effect w frame o w' frames)
    (steady : ∀ {locator}, w'.loader.Fetches locator → w.loader.Fetches locator ∨
      w'.loader.Expects locator)
    (ends : ∀ token, frame = .retrieved token →
      ∀ waiter ∈ (w.loader.ledger.inFlight.get? token.resource).getD [],
        ¬ w'.loader.Fetches waiter.locator) : w'.loader.Coherent := by
  cases effect with
  | calm tame ledger => exact coherent.carried ledger tame.resolver steady
  | removed locator tame loader => exact coherent.carried (by rw [loader]; rfl) tame.resolver steady
  | passed wanted calm => exact coherent.carried calm.ledger calm.resolver steady
  | called number calm => exact coherent.carried calm.ledger calm.resolver steady
  | opened same nonempty tame ledger => exact coherent.carried ledger tame.resolver steady
  | arrived b tame ledger => exact coherent.carried ledger tame.resolver steady
  | joined waiter waiters tame flying ledger =>
    exact coherent.awaited (.inl flying) ledger tame.resolver steady
  | started waiter token tame same grounded stale ledger =>
    subst same
    exact coherent.awaited (.inr ⟨grounded, rfl⟩) ledger tame.resolver steady
  | finished token tame same ledger => exact coherent.finished ledger tame.resolver steady (ends token same)

end Loader.Coherent

section

variable {host : Action → Prop} {setup : Setup} {past : List Machine} {m : Machine}

theorem coherent_always (run : Run host (.fresh setup) past m) : m.world.loader.Coherent := by
  refine run.invariant (P := fun _ m => m.world.loader.Coherent) ?_ ?_ ?_
  · rw [Machine.fresh, World.start_bare]
    refine ⟨fun flying => (by cases flying), fun flying => (by cases flying), ?_⟩
    rintro locator ⟨r, held, -⟩
    cases held
  · intro past w frame rest run coherent
    have bears := (founded_always run).stack frame (List.mem_cons_self ..)
    refine coherent.effect (frame.effect run.sound) ((bears.turn run.sound).expects run.sound) ?_
    rintro token rfl waiter waited
    exact Loader.finishFetch_ends run.sound token waited
  · intro past w action _ _ coherent
    exact coherent

/-- With a fetcher that queues what it is asked for no retrieval is lost: those that can still be completed
are those under way. -/
structure Lossless (os : List Occurrence) (m : Machine) : Prop where
  policy : m.world.fetcher.policy = .queued
  unhanded : m.world.fetcher.tokens = #[]
  tokens : m.tokens.Perm (underWay os)

theorem Lossless.effect {os : List Occurrence} {w w' : World} {frame : Frame} {rest frames : List Frame}
    {o : Occurrence} (effect : Effect w frame o w' frames) (lossless : Lossless os ⟨w, frame :: rest⟩) :
    Lossless (o :: os) ⟨w', frames ++ rest⟩ := by
  obtain ⟨policy, unhanded, tokens⟩ := lossless
  have tame := effect.tame
  have other : w.fetcher.policy ≠ .manual := fun manual => by cases policy.symm.trans manual
  refine ⟨tame.policy.trans policy, tame.unhanded other unhanded, ?_⟩
  refine (Machine.tokens_perm w' frames rest).trans ?_
  have passed (plain : frame.token? = none)
      (same : (frames.filterMap Frame.token? ++ w'.inHand).Perm w.inHand) :
      (rest.filterMap Frame.token? ++ (frames.filterMap Frame.token? ++ w'.inHand)).Perm
        (underWay os) := by
    refine (same.append_left _).trans ?_
    rw [← Machine.tokens_cons rest plain]
    exact tokens
  have still (none : frames.filterMap Frame.token? = []) (inHand : w'.inHand = w.inHand) :
      (frames.filterMap Frame.token? ++ w'.inHand).Perm w.inHand := by
    rw [none, inHand]
    exact .refl _
  cases effect with
  | calm tame ledger barriers orderly goals fewer plain whole => exact passed plain (whole unhanded)
  | removed locator tame loader inHand goals none plain => exact passed plain (still none inHand)
  | passed wanted calm issued before after none plain => exact passed plain (still none calm.inHand)
  | called number calm before after none plain => exact passed plain (still none calm.inHand)
  | opened same nonempty tame ledger barriers orderly inHand =>
    subst same
    exact passed rfl (still rfl inHand)
  | joined waiter waiters tame flying ledger barriers orderly inHand goals none plain =>
    exact passed plain (still none inHand)
  | arrived b tame ledger counted orderly inHand goals plain =>
    refine passed plain (still ?_ inHand)
    obtain ⟨-, -, rfl⟩ | ⟨-, -, rfl⟩ := counted
    · cases (w.loader.barrier b).onDone <;> rfl
    · rfl
  | started waiter token tame same grounded stale ledger barriers orderly goals fewer plain whole =>
    refine ((whole policy).append_left _).trans (List.perm_middle.trans (.cons _ ?_))
    rw [← Machine.tokens_cons rest plain]
    exact tokens
  | finished token tame same ledger barriers orderly landed inHand =>
    subst same
    have none (waiters : List Waiter) : (waiters.map fun waiter =>
        Frame.settled waiter.locator waiter.barrier).filterMap Frame.token? = [] := by
      simp [List.filterMap_map, Function.comp_def, Frame.token?]
    rw [none, inHand, List.nil_append]
    exact (List.cons_perm_iff_perm_erase.mp tokens).2

theorem lossless_always (run : Run host (.fresh setup) past m) (queued : setup.policy = .queued) :
    Lossless (occurrences past) m := by
  refine run.invariant (P := fun past m => Lossless (occurrences past) m) ?_ ?_ ?_
  · rw [Machine.fresh, World.start_bare]
    exact ⟨queued, rfl, .refl _⟩
  · intro past w frame rest run lossless
    exact lossless.effect (frame.effect run.sound)
  · rintro past w action - - ⟨policy, unhanded, tokens⟩
    exact ⟨policy, unhanded, tokens⟩

/-- At every moment: no resource is both under way and finished; whoever is under way is waited for, by
locators that have this resource; a registered locator whose record is being retrieved is waited for
itself; and no registered record is unknown. When nothing is left to do, a fetcher that queues holds each
resource under way once and nothing else. -/
theorem ledger_coherent (run : Run host (.fresh setup) past m) :
    let l := m.world.loader
    (∀ p, ¬ (l.ledger.inFlight.contains p ∧ l.ledger.completed.contains p)) ∧
    (∀ p waiters, l.ledger.inFlight.get? p = some waiters →
      waiters ≠ [] ∧ ∀ waiter ∈ waiters, l.resolver.physicalId waiter.locator = p) ∧
    (∀ locator r, l.entry? locator = some r → l.status r = .fetching →
      ∃ waiters, l.ledger.inFlight.get? (l.resolver.physicalId locator) = some waiters ∧
        locator ∈ waiters.map Waiter.locator) ∧
    (∀ locator r, l.entry? locator = some r → l.status r ≠ .unknown) ∧
    (m.stack = [] → setup.policy = .queued →
      (m.world.fetcher.queue.map FetchToken.resource).Perm l.ledger.inFlight.keys) := by
  have coherent := coherent_always run
  refine ⟨fun p both => ?_, fun p waiters => coherent.waited, fun locator r held fetching => ?_,
    fun locator r => run.sound.known, fun idle queued => ?_⟩
  · obtain ⟨waiters, flying⟩ := Option.isSome_iff_exists.mp both.1
    have finished := both.2
    rw [OrderedMap.contains, coherent.apart flying] at finished
    cases finished
  · exact coherent.expected ⟨r, held, fetching⟩
  · have tracked := tracked_always run
    obtain ⟨-, unhanded, tokens⟩ := lossless_always run queued
    have queue : m.tokens = m.world.fetcher.queue := by
      rw [Machine.tokens, idle, World.inHand, unhanded]
      exact List.append_nil _
    rw [queue] at tokens
    refine (tokens.map _).trans ?_
    refine (List.perm_ext_iff_of_nodup tracked.single m.world.loader.ledger.inFlight.nodup).mpr ?_
    exact fun p => (tracked.flying p).symm.trans (OrderedMap.mem_keys_iff _ p).symm

end

/-- A module is removed while its file is retrieved, and asked for again. -/
theorem ledger_coherent_removed :
    ∃ past m, Run (fun _ => True) (.fresh (.lone .queued)) past m ∧
      m.world.loader.status ⟨1⟩ = .fetching ∧ m.world.loader.entry? ⟨"mem:a"⟩ = some ⟨1⟩ ∧
      (∃ waiters, m.world.loader.ledger.inFlight.get? ⟨"mem:a"⟩ = some waiters ∧
        ⟨"mem:a"⟩ ∈ waiters.map Waiter.locator) ∧
      (m.world.fetcher.queue.map FetchToken.resource).Perm [⟨"mem:a"⟩] := by
  have fresh : Run (fun _ => True) (.fresh (.lone .queued)) [] (.fresh (.lone .queued)) := .start
  have run := fresh.played 40 [.useModules ["a"] "page" [], .remove "mem:a", .useModules ["a"] "again" []]
    (fun _ _ => trivial) (by decide +kernel)
  obtain ⟨-, -, expected, -, queue⟩ := ledger_coherent run
  have fetching := expected ⟨"mem:a"⟩ ⟨1⟩ (by decide +kernel) (by decide +kernel)
  refine ⟨_, _, run, by decide +kernel, by decide +kernel, fetching, ?_⟩
  exact (queue rfl rfl).trans (.of_eq (by decide +kernel))

end ModuleLoader
