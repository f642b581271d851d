import ModuleLoader.Proofs.Listed.Session
import ModuleLoader.Proofs.Waiting

/-! Who still waits in a session over a table. A locator that has been asked for waits at some load
until its dependencies have been waited for, and a load is over when nobody waits at it. -/
namespace ModuleLoader

open Loader (Sound Kept Raised Retrieved Tabular)

namespace Loader

/-- Nobody has been asked for, and records have only moved on. -/
structure Steady (l l' : Loader) : Prop where
  registry : l'.registry = l.registry
  ledger : l'.ledger = l.ledger
  fixed : ∀ r, (l'.record r).fixed = (l.record r).fixed
  status : ∀ r, l.status r ≤ l'.status r

theorem Raised.steady {l l' : Loader} (raised : Raised l l') : Steady l l' :=
  ⟨(congrArg Loader.registry raised.base :), raised.ledger, raised.fixed, raised.rises⟩

/-- Locators stand for the records that they stood for, and these have moved on. -/
structure Advances (l l' : Loader) : Prop where
  entry : ∀ {locator r}, l.entry? locator = some r → l'.entry? locator = some r
  locator : ∀ {r}, l.status r ≠ .unknown → (l'.record r).locator = (l.record r).locator
  dependencies : ∀ {r}, .saved ≤ l.status r → (l'.record r).dependencies = (l.record r).dependencies
  status : ∀ r, l.status r ≤ l'.status r

def Registered (l : Loader) (d : Locator) : Prop := ∃ r, l.entry? d = some r

theorem Advances.registered {l l' : Loader} {d : Locator} (advances : Advances l l') :
    l.Registered d → l'.Registered d
  | ⟨r, held⟩ => ⟨r, advances.entry held⟩

theorem Steady.entry {l l' : Loader} (steady : Steady l l') (locator : Locator) :
    l'.entry? locator = l.entry? locator := congrArg (OrderedMap.get? · locator) steady.registry

theorem Steady.advances {l l' : Loader} (steady : Steady l l') : Advances l l' :=
  ⟨fun held => (steady.entry _).trans held, fun _ => (congrArg Record.locator (steady.fixed _) :),
    fun _ => (congrArg Record.dependencies (steady.fixed _) :), steady.status⟩

theorem Advances.of_requested {l l' : Loader} {locator : Locator}
    (absent : l.entry? locator = none) {b : BarrierId} {anonymous : Option Definition}
    (loader : l' = { l.requested locator b with anonymous }) : Advances l l' := by
  have record (x : RecordId) : l'.record x =
      if x = ⟨l.records.size⟩ then { locator, status := .fetching } else l.record x := by
    rw [loader]
    exact l.record_requested locator b x
  have old {x : RecordId} (known : l.status x ≠ .unknown) : l'.record x = l.record x := by
    rw [record, if_neg]
    rintro rfl
    exact Nat.lt_irrefl _ (index_lt_of_known known)
  refine ⟨?_, fun known => by rw [old known], ?_, ?_⟩
  · intro x r held
    rw [loader]
    apply (l.entry_requested locator x b).trans
    rw [if_neg, held]
    rintro rfl
    rw [absent] at held
    cases held
  · intro r saved
    rw [old (Status.ne_unknown_of_le (a := .saved) (by decide) saved)]
  · intro r
    by_cases unknown : l.status r = .unknown
    · rw [unknown]
      exact Nat.zero_le _
    · rw [Loader.status, Loader.status, old unknown]
      exact Status.le_refl _

theorem Retrieved.advances {setup : Setup} {l l' : Loader} {token : FetchToken} {r : RecordId}
    (fetching : l.status r = .fetching) (retrieved : Retrieved setup l l' token r) :
    Advances l l' := by
  refine ⟨fun held => (retrieved.entry _).trans held, fun _ => retrieved.same_locator _, ?_, ?_⟩
  · intro x saved
    rw [retrieved.others]
    rintro rfl
    rw [fetching] at saved
    exact absurd saved (by decide)
  · intro x
    by_cases same : x = r
    · rw [same, fetching]
      exact Status.le_trans (b := .fetched) (by decide) retrieved.fetched
    · rw [Loader.status, Loader.status, retrieved.others x same]
      exact Status.le_refl _

end Loader

/-- Work that has no part in loads asks for nothing. -/
theorem QuietMove.steady {setup : Setup} {w w' : World} {frame : Frame} {frames : List Frame}
    (move : QuietMove setup w frame w' frames) :
    w.loader.Steady w'.loader ∧ w'.fetcher.requests = w.fetcher.requests := by
  cases move with
  | still kept fetcher => exact ⟨kept.raised.steady, by rw [fetcher]⟩
  | compiling r same saved below raised only fetcher => exact ⟨raised.steady, by rw [fetcher]⟩
  | compiled r same raised only fetcher => exact ⟨raised.steady, by rw [fetcher]⟩
  | asked site ids tag body later same loader fetcher =>
    exact ⟨loader ▸ (Kept.refl _).raised.steady, by rw [fetcher]⟩
  | taken token anonymous queued awaited loader queue =>
    refine ⟨?_, by rw [queue]⟩
    rw [loader]
    exact ⟨rfl, rfl, fun _ => rfl, fun _ => Status.le_refl _⟩

namespace Work

variable {setup : Setup} {w w' : World} {frame : Frame} {frames : List Frame}

theorem advances (work : Work setup w frame w' frames) : w.loader.Advances w'.loader := by
  cases work with
  | quiet isQuiet move => exact move.steady.1.advances
  | relayed relay loader => exact loader ▸ (Kept.refl _).raised.steady.advances
  | skipped | ended => exact (Kept.refl _).raised.steady.advances
  | opened locators next loader =>
    have kept : Kept w.loader w'.loader := .of_base (by rw [loader]; rfl) (by rw [loader]; rfl)
    exact kept.raised.steady.advances
  | joined locator later b waiters flying loader =>
    rw [loader]
    exact ⟨id, fun _ => rfl, fun _ => rfl, fun _ => Status.le_refl _⟩
  | asked locator later b absent anonymous loader => exact .of_requested absent loader
  | missing locator b r held fetched arrival => exact arrival.raised.steady.advances
  | ready locator b r held saved bare arrival => exact arrival.raised.steady.advances
  | waits locator b r held saved kept => exact kept.raised.steady.advances
  | arrived b r saved arrival => exact arrival.raised.steady.advances
  | finished token r waiters held fetching resource flying waiting landed retrieved =>
    exact retrieved.advances fetching

/-- A locator is asked for when it is first met with, and the fetcher is asked for it then. -/
theorem registered (work : Work setup w frame w' frames) :
    (w'.loader.registry = w.loader.registry ∧ w'.fetcher.requests = w.fetcher.requests) ∨
    ∃ locator later b, frame = .entries (locator :: later) b ∧ w.loader.entry? locator = none ∧
      w'.loader.registry = w.loader.registry.insert locator ⟨w.loader.records.size⟩ ∧
      w'.fetcher.requests =
        w.fetcher.requests.push ⟨.ofLocator locator, w.loader.config.charset⟩ ∧
      w'.loader.ledger.inFlight.get? (.ofLocator locator) = some [⟨locator, b⟩] := by
  cases work with
  | quiet isQuiet move => exact .inl ⟨move.steady.1.registry, move.steady.2⟩
  | relayed relay loader fetcher => exact .inl ⟨by rw [loader], by rw [fetcher]⟩
  | skipped | ended => exact .inl ⟨rfl, rfl⟩
  | opened locators next loader fetcher => exact .inl ⟨by rw [loader]; rfl, by rw [fetcher]⟩
  | joined locator later b waiters flying loader fetcher =>
    exact .inl ⟨by rw [loader]; rfl, by rw [fetcher]⟩
  | asked locator later b absent anonymous loader files policy requests =>
    refine .inr ⟨locator, later, b, rfl, absent, by rw [loader]; rfl, requests, ?_⟩
    rw [loader]
    exact (OrderedMap.get?_insert ..).trans (if_pos rfl)
  | missing locator b r held fetched arrival =>
    exact .inl ⟨arrival.raised.steady.registry, by rw [arrival.fetcher]⟩
  | ready locator b r held saved bare arrival =>
    exact .inl ⟨arrival.raised.steady.registry, by rw [arrival.fetcher]⟩
  | waits locator b r held saved kept fetcher =>
    exact .inl ⟨kept.raised.steady.registry, by rw [fetcher]⟩
  | arrived b r saved arrival => exact .inl ⟨arrival.raised.steady.registry, by rw [arrival.fetcher]⟩
  | finished token r waiters held fetching resource flying waiting landed retrieved fetcher =>
    exact .inl ⟨(congrArg Loader.registry retrieved.base :), by rw [fetcher]⟩

end Work

/-- What is done for a locator stays done. -/
theorem Setup.Done.mono {setup : Setup} {l l' : Loader} {d : Locator} (tabular : Tabular setup l')
    (advances : l.Advances l') (done : setup.Done l d) : setup.Done l' d := by
  obtain ⟨r, held, state⟩ := done
  refine ⟨r, advances.entry held, ?_⟩
  obtain ready | ⟨fetched, bare⟩ := state
  · exact .inl (Status.le_trans ready (advances.status r))
  · refine .inr ⟨?_, bare⟩
    have rises := advances.status r
    have below : ¬ .saved ≤ l'.status r := fun saved =>
      (tabular.own (advances.entry held) ▸ (tabular.full saved).1) bare
    revert rises below
    rw [fetched]
    cases l'.status r <;> simp [Status.le_iff, Status.code]

/-! Waiting. -/

section

variable {setup : Setup} {w w' : World} {frame : Frame} {frames rest : List Frame} {o : Occurrence}

/-- What a load goes on to is pending until it is its turn. -/
theorem Pending.step {next : Continuation} (work : Work setup w frame w' frames)
    (effect : Effect w frame o w' frames) (pending : Pending (frame :: rest) w.loader next) :
    Pending (frames ++ rest) w'.loader next ∨ frame = .resume next := by
  cases pending with
  | load locators member =>
    rcases List.mem_cons.mp member with rfl | below
    · cases work with
      | quiet isQuiet => cases isQuiet
      | relayed relay => cases relay
      | skipped => exact .inl (.resume (List.mem_cons_self ..))
      | opened _ _ loader =>
        refine .inl (.barrier ⟨w.loader.barriers.size⟩ ?_)
        rw [loader, Loader.barrier]
        exact congrArg Barrier.onDone ((Table.get_push ..).trans (if_pos rfl))
    · exact .inl (.load locators (List.mem_append_right _ below))
  | resume member =>
    rcases List.mem_cons.mp member with rfl | below
    · exact .inr rfl
    · exact .inl (.resume (List.mem_append_right _ below))
  | barrier b waits =>
    obtain still | resumed := effect.pending waits
    · exact .inl (.barrier b still)
    · exact .inl (.resume (List.mem_append_left _ resumed))

/-- A locator waits until it is done. -/
theorem WaitsAt.step {d : Locator} {b : BarrierId} (plain : Plain setup (frame :: rest) w)
    (sound : Sound w.loader) (work : Work setup w frame w' frames)
    (effect : Effect w frame o w' frames) (waits : WaitsAt (frame :: rest) w.loader d b) :
    setup.Done w'.loader d ∨ WaitsAt (frames ++ rest) w'.loader d b := by
  have advances := work.advances
  cases waits with
  | entry locators entries member =>
    rcases List.mem_cons.mp entries with rfl | below
    · cases work with
      | quiet isQuiet => cases isQuiet
      | relayed relay =>
        cases relay
        cases member
      | ended locator later _ landed =>
        rcases List.mem_cons.mp member with rfl | later'
        · exact .inr (.settled (List.mem_cons_self ..))
        · exact .inr (.entry later (List.mem_cons_of_mem _ (List.mem_cons_self ..)) later')
      | joined locator later _ waiters flying loader =>
        rcases List.mem_cons.mp member with rfl | later'
        · refine .inr (.flying (.ofLocator d) (waiters ++ [⟨d, b⟩]) ?_ ?_)
          · rw [loader]
            exact (OrderedMap.get?_insert ..).trans (if_pos rfl)
          · exact List.mem_append_right _ (List.mem_cons_self ..)
        · exact .inr (.entry later (List.mem_cons_self ..) later')
      | asked locator later _ absent anonymous loader =>
        rcases List.mem_cons.mp member with rfl | later'
        · refine .inr (.flying (.ofLocator d) [⟨d, b⟩] ?_ (List.mem_cons_self ..))
          rw [loader]
          exact (OrderedMap.get?_insert ..).trans (if_pos rfl)
        · refine .inr (.entry later ?_ later')
          exact List.mem_append_left _ (List.mem_append_right _ (List.mem_cons_self ..))
    · exact .inr (.entry locators (List.mem_append_right _ below) member)
  | flying p waiters flying member =>
    obtain ⟨now, flying, member⟩ | settled := effect.flying flying member
    · exact .inr (.flying p now flying member)
    · exact .inr (.settled (List.mem_append_left _ settled))
  | settled settled =>
    rcases List.mem_cons.mp settled with rfl | below
    · cases work with
      | quiet isQuiet => cases isQuiet
      | relayed relay => cases relay
      | missing _ _ r held fetched arrival =>
        refine .inl ⟨r, advances.entry held, .inr ⟨?_, ?_⟩⟩
        · rw [arrival.others r (Option.some_ne_none r).symm, fetched]
        · rw [← plain.tabular.own held]
          exact plain.tabular.bare fetched
      | ready _ _ r held saved bare arrival =>
        exact .inl ⟨r, advances.entry held, .inl (arrival.ready r rfl)⟩
      | waits _ _ r held saved kept =>
        refine .inr (.dependencies r ?_ ?_ (.load _ (List.mem_cons_self ..)))
        · rw [kept.status]
          exact sound.known held
        · rw [advances.locator (sound.known held)]
          exact plain.tabular.own held
    · exact .inr (.settled (List.mem_append_right _ below))
  | dependencies r known own pending =>
    have known' := Status.ne_unknown_of_le known (advances.status r)
    have own' := (advances.locator known).trans own
    obtain pending | rfl := pending.step work effect
    · exact .inr (.dependencies r known' own' pending)
    · cases work with
      | quiet isQuiet => cases isQuiet
      | relayed relay => cases relay
      | arrived _ _ saved arrival =>
        refine .inl ⟨r, ?_, .inl (arrival.ready r rfl)⟩
        rw [← own]
        exact advances.entry (plain.tabular.entered known)

end

/-- Whatever has been asked for is done, or some load waits for it. -/
def Setup.Awaits (setup : Setup) (stack : List Frame) (l : Loader) : Prop :=
  ∀ d r, l.entry? d = some r → setup.Done l d ∨ ∃ b, WaitsAt stack l d b

theorem Setup.Awaits.step {setup : Setup} {w w' : World} {frame : Frame} {frames rest : List Frame}
    {o : Occurrence} (awaits : setup.Awaits (frame :: rest) w.loader)
    (plain : Plain setup (frame :: rest) w) (tabular : Tabular setup w'.loader)
    (sound : Sound w.loader) (work : Work setup w frame w' frames)
    (effect : Effect w frame o w' frames) : setup.Awaits (frames ++ rest) w'.loader := by
  intro d r held
  have before {x : RecordId} (there : w.loader.entry? d = some x) :
      setup.Done w'.loader d ∨ ∃ b, WaitsAt (frames ++ rest) w'.loader d b := by
    obtain done | ⟨b, waits⟩ := awaits d x there
    · exact .inl (done.mono tabular (work.advances))
    · obtain done | waits := waits.step plain sound work effect
      · exact .inl done
      · exact .inr ⟨b, waits⟩
  obtain ⟨registry, -⟩ | ⟨locator, later, b, -, absent, registry, -, flying⟩ := work.registered
  · exact before ((congrArg (OrderedMap.get? · d) registry).symm.trans held)
  · change w'.loader.registry.get? d = some r at held
    rw [registry, OrderedMap.get?_insert] at held
    split at held
    · rename_i here
      subst here
      exact .inr ⟨b, .flying _ _ flying (List.mem_cons_self ..)⟩
    · exact before held

end ModuleLoader
