import ModuleLoader.Proofs.Listed.Quiet

/-! What each frame does in a session over a table. Every kind of frame is looked into here once; the
arguments about such sessions go by the kinds of work. -/
namespace ModuleLoader

open Loader (Sound Landed Grows Kept Raised Retrieved Tabular)

/-- Only a retrieval that is about to be finished has a registration waiting for a name. -/
def Setup.Named (setup : Setup) (anonymous : Option Definition) : List Frame → Prop
  | .retrieved token :: _ => setup.Awaited token.locator anonymous
  | _ => anonymous = none

structure Plain (setup : Setup) (stack : List Frame) (w : World) : Prop where
  tabular : Tabular setup w.loader
  offers : ∀ locator, w.fetcher.Offers setup locator
  policy : w.fetcher.policy = setup.policy
  frames : ∀ f ∈ stack, f.isPlain = true ∧ f.Backed w.loader
  loads : ∀ b next, (w.loader.barrier b).onDone = some next →
    next.isPlain = true ∧ next.Backed w.loader
  named : setup.Named w.loader.anonymous stack
  tail : ∀ f ∈ stack.tail, f.token? = none

theorem Plain.unnamed {setup : Setup} {w : World} {frame : Frame} {rest : List Frame}
    (plain : Plain setup (frame :: rest) w) (other : frame.token? = none) :
    w.loader.anonymous = none := by
  have named := plain.named
  cases frame with
  | retrieved token => cases other
  | _ => exact named

namespace Loader

theorem Kept.trans {a b c : Loader} (ab : Kept a b) (bc : Kept b c) : Kept a c :=
  ⟨bc.base.trans ab.base, fun r => (bc.fixed r).trans (ab.fixed r),
    fun r => (bc.status r).trans (ab.status r)⟩

theorem emit_kept (l : Loader) (d : Diagnostic) : Kept l (l.emit d) := by
  unfold emit
  split
  dsimp only
  split <;> exact .of_base rfl rfl

theorem reportAll_kept (l : Loader) (cs : List Condition) : Kept l (l.reportAll cs) :=
  reportAll_induction .refl .trans emit_kept l cs

theorem settledEntry_kept (l : Loader) (locator : Locator) : Kept l (l.settledEntry locator).1 := by
  unfold settledEntry
  split
  · exact .refl l
  · split
    · exact .refl l
    · exact l.reportAll_kept _

theorem markReady_raised {l : Loader} {r : RecordId} (saved : .saved ≤ l.status r) :
    Raised l (l.markReady r) ∧ .ready ≤ (l.markReady r).status r ∧
      ∀ x, x ≠ r → (l.markReady r).status x = l.status x := by
  unfold markReady
  split
  · rename_i below
    obtain ⟨raised, only⟩ := Raised.of_update (l := l) (r := r) (s := .ready)
      (f := fun record => { record with status := .ready }) (fun _ => rfl) (fun _ => rfl) saved
      (Nat.le_of_lt below)
    have ready : (l.setStatus r .ready).status r = .ready := (only r).trans (if_pos rfl)
    refine ⟨⟨raised.base, raised.fixed, raised.status⟩, ?_, fun x other => (only x).trans (if_neg other)⟩
    rw [ready]
    exact Status.le_refl _
  · rename_i above
    exact ⟨(Kept.refl l).raised, Nat.not_lt.mp above, fun _ _ => rfl⟩

/-- Counting an entry at its barrier does nothing else than moving on the record that it brings. -/
theorem arrive_raised {l : Loader} {loaded : Option RecordId}
    (saved : ∀ r, loaded = some r → .saved ≤ l.status r) (b : BarrierId) :
    Raised l (l.arrive b loaded).1 ∧ (∀ r, loaded = some r → .ready ≤ (l.arrive b loaded).1.status r) ∧
      ∀ x, loaded ≠ some x → (l.arrive b loaded).1.status x = l.status x := by
  have counted (l : Loader) : Kept l (l.countDown b).1 := by
    unfold countDown
    dsimp only
    split <;> exact .of_base rfl rfl
  cases loaded with
  | none =>
    have kept := counted l
    exact ⟨kept.raised, fun r some => (by cases some), fun x _ => kept.status x⟩
  | some r =>
    obtain ⟨raised, ready, others⟩ := markReady_raised (saved r rfl)
    have kept := counted (l.markReady r)
    refine ⟨raised.trans kept.raised, ?_, ?_⟩
    · intro x here
      cases here
      exact Status.le_trans ready (kept.raised.rises r)
    · intro x other
      refine (kept.status x).trans (others x ?_)
      rintro rfl
      exact other rfl

end Loader

/-- Fetchers that answer from the table, at once or when the host says so. -/
def FetchPolicy.Answers (policy : FetchPolicy) : Prop := policy = .queued ∨ policy = .immediate

/-- The fetcher after it has been asked for a resource. -/
def World.logged (w : World) (token : FetchToken) : World :=
  { w with fetcher := w.fetcher.logRequest ⟨token.resource, w.loader.config.charset⟩ }

theorem World.retrieve_listed {setup : Setup} {w : World} {locator : Locator}
    (answers : w.fetcher.policy.Answers) (offers : w.fetcher.Offers setup locator)
    (unnamed : w.loader.anonymous = none) :
    let token : FetchToken := ⟨.ofLocator locator, locator⟩
    (w.fetcher.policy = .queued ∧ w.retrieve token =
      ({ w.logged token with fetcher.queue := w.fetcher.queue ++ [token] }, [])) ∨
    ∃ anonymous, setup.Awaited locator anonymous ∧ w.fetcher.policy = .immediate ∧
      w.retrieve token =
        ({ w.logged token with loader := { w.loader with anonymous } }, [.retrieved token]) := by
  intro token
  obtain queued | immediate := answers
  · refine .inl ⟨queued, ?_⟩
    simp only [retrieve, queued]
    rfl
  · obtain ⟨anonymous, awaited, evaluated⟩ :=
      evaluate_listed (w := w.logged token) (offers.of_files rfl) unnamed
    refine .inr ⟨anonymous, awaited, immediate, ?_⟩
    simp only [retrieve, immediate]
    exact congrArg (·, [Frame.retrieved token]) evaluated

/-! The kinds of work. -/

/-- An entry arrives at its load, with the record that it brings. -/
structure Arrival (w : World) (b : BarrierId) (loaded : Option RecordId) (w' : World)
    (frames : List Frame) : Prop where
  raised : Raised w.loader w'.loader
  ready : ∀ r, loaded = some r → .ready ≤ w'.loader.status r
  others : ∀ x, loaded ≠ some x → w'.loader.status x = w.loader.status x
  fetcher : w'.fetcher = w.fetcher
  counted : w.Counted b w' frames

/-- All that an arrival can leave is what the load goes on to, when it is over. -/
theorem Arrival.resumes {w w' : World} {b : BarrierId} {loaded : Option RecordId}
    {frames : List Frame} (arrival : Arrival w b loaded w' frames) :
    ∀ f ∈ frames, ∃ next, f = .resume next ∧ (w.loader.barrier b).onDone = some next ∧
      w'.loader.barrier b = ⟨0, none⟩ := by
  intro f member
  obtain ⟨-, barriers, rfl⟩ | ⟨-, -, rfl⟩ := arrival.counted
  · rw [Option.mem_toList, Option.map_eq_some_iff] at member
    obtain ⟨next, waits, rfl⟩ := member
    have ended := Loader.barrier_changed (Loader.inside_of_onDone waits) barriers b
    exact ⟨next, rfl, waits, ended.trans (if_pos rfl)⟩
  · cases member

/-- What a request goes through before and after its load. -/
inductive Relay (setup : Setup) (w : World) : Frame → List Frame → Prop where
  | emptied (b : BarrierId) : Relay setup w (.entries [] b) []
  | begun (ids : List String) (receiver : Receiver) :
      Relay setup w (.resume (.request ids receiver)) [.request none ids receiver]
  | requested (ids : List String) (receiver : Receiver) (locators : List (Option Locator))
      (all : locators.length = ids.length) :
      Relay setup w (.request none ids receiver) [.load (setup.wanted ids) (.preload locators receiver)]
  | loaded (locators : List (Option Locator)) (receiver : Receiver) :
      Relay setup w (.resume (.preload locators receiver)) [.preload (.gather locators receiver)]
  | preloaded (next : Continuation) : Relay setup w (.preload next) [.resume next]
  | gathered (locators : List (Option Locator)) (receiver : Receiver) :
      Relay setup w (.resume (.gather locators receiver)) [.gather locators [] receiver]
  | compiles (locator : Option Locator) (locators : List (Option Locator))
      (interfaces : List (Option Value)) (receiver : Receiver) (r : RecordId) :
      Relay setup w (.gather (locator :: locators) interfaces receiver)
        [.compile r, .collect locators interfaces receiver]
  | passed (locator : Option Locator) (locators : List (Option Locator))
      (interfaces : List (Option Value)) (receiver : Receiver) :
      Relay setup w (.gather (locator :: locators) interfaces receiver)
        [.gather locators (interfaces ++ [none]) receiver]
  | collected (locators : List (Option Locator)) (interfaces : List (Option Value))
      (receiver : Receiver) (answer : Option Value) :
      Relay setup w (.collect locators interfaces receiver)
        [.gather locators (interfaces ++ [answer]) receiver]
  | delivered (interfaces : List (Option Value)) (receiver : Receiver) :
      Relay setup w (.gather [] interfaces receiver) [.deliver receiver interfaces]
  | called (callback : Callback) (interfaces : List (Option Value)) :
      Relay setup w (.deliver (.host callback) interfaces) [.script ⟨callback.place, none⟩ callback.body]

inductive Work (setup : Setup) (w : World) : Frame → World → List Frame → Prop where
  | quiet {frame : Frame} {w' : World} {frames : List Frame} (isQuiet : frame.isQuiet = true)
      (move : QuietMove setup w frame w' frames) : Work setup w frame w' frames
  | relayed {frame : Frame} {w' : World} {frames : List Frame} (relay : Relay setup w frame frames)
      (loader : w'.loader = w.loader) (fetcher : w'.fetcher = w.fetcher) : Work setup w frame w' frames
  /-- There is nothing to load. -/
  | skipped (locators : List Locator) (next : Continuation)
      (ready : ∀ d ∈ locators, w.loader.needsLoading d = false) :
      Work setup w (.load locators next) w [.resume next]
  | opened (locators : List Locator) (next : Continuation) {w' : World}
      (loader : w'.loader =
        (w.loader.newBarrier (locators.filter w.loader.needsLoading).length next).1)
      (fetcher : w'.fetcher = w.fetcher) :
      Work setup w (.load locators next) w'
        [.entries (locators.filter w.loader.needsLoading) ⟨w.loader.barriers.size⟩]
  /-- The retrieval of an entry is over. -/
  | ended (locator : Locator) (later : List Locator) (b : BarrierId) (landed : Landed w.loader locator) :
      Work setup w (.entries (locator :: later) b) w [.settled locator b, .entries later b]
  | joined (locator : Locator) (later : List Locator) (b : BarrierId) (waiters : List Waiter)
      {w' : World} (flying : w.loader.ledger.inFlight.get? (.ofLocator locator) = some waiters)
      (loader : w'.loader = w.loader.joined locator b waiters) (fetcher : w'.fetcher = w.fetcher) :
      Work setup w (.entries (locator :: later) b) w' [.entries later b]
  /-- The fetcher is asked, and answers at once or when the host says so. -/
  | asked (locator : Locator) (later : List Locator) (b : BarrierId) {w' : World}
      {frames : List Frame} (absent : w.loader.entry? locator = none) (anonymous : Option Definition)
      (loader : w'.loader = { w.loader.requested locator b with anonymous })
      (files : w'.fetcher.files = w.fetcher.files) (policy : w'.fetcher.policy = w.fetcher.policy)
      (requests : w'.fetcher.requests =
        w.fetcher.requests.push ⟨.ofLocator locator, w.loader.config.charset⟩)
      (handed :
        (frames = [] ∧ anonymous = none ∧ w.fetcher.policy = .queued ∧
          w'.fetcher.queue = w.fetcher.queue ++ [⟨.ofLocator locator, locator⟩]) ∨
        frames = [.retrieved ⟨.ofLocator locator, locator⟩] ∧ setup.Awaited locator anonymous ∧
          w'.fetcher.queue = w.fetcher.queue) :
      Work setup w (.entries (locator :: later) b) w' (frames ++ [.entries later b])
  /-- The table holds nothing for the entry. -/
  | missing (locator : Locator) (b : BarrierId) (r : RecordId) {w' : World} {frames : List Frame}
      (held : w.loader.entry? locator = some r) (fetched : w.loader.status r = .fetched)
      (arrival : Arrival w b none w' frames) : Work setup w (.settled locator b) w' frames
  /-- Waiting for any of the dependencies would never end, or there are none. -/
  | ready (locator : Locator) (b : BarrierId) (r : RecordId) {w' : World} {frames : List Frame}
      (held : w.loader.entry? locator = some r) (saved : .saved ≤ w.loader.status r)
      (bare : (w.loader.pureDependencies r).1 = []) (arrival : Arrival w b (some r) w' frames) :
      Work setup w (.settled locator b) w' frames
  | waits (locator : Locator) (b : BarrierId) (r : RecordId) {w' : World}
      (held : w.loader.entry? locator = some r) (saved : .saved ≤ w.loader.status r)
      (kept : Kept w.loader w'.loader) (fetcher : w'.fetcher = w.fetcher)
      (barriers : w'.loader.barriers = w.loader.barriers) :
      Work setup w (.settled locator b) w' [.load (w.loader.pureDependencies r).1 (.arrive b r)]
  /-- The dependencies of a record have been waited for. -/
  | arrived (b : BarrierId) (r : RecordId) {w' : World} {frames : List Frame}
      (saved : .saved ≤ w.loader.status r) (arrival : Arrival w b (some r) w' frames) :
      Work setup w (.resume (.arrive b r)) w' frames
  | finished (token : FetchToken) (r : RecordId) (waiters : List Waiter) {w' : World}
      (held : w.loader.entry? token.locator = some r) (fetching : w.loader.status r = .fetching)
      (resource : token.resource = .ofLocator token.locator)
      (flying : w.loader.ledger.inFlight.get? token.resource = some waiters)
      (waiting : ∀ waiter ∈ waiters, waiter.locator = token.locator)
      (landed : Landed w'.loader token.locator)
      (retrieved : Retrieved setup w.loader w'.loader token r) (fetcher : w'.fetcher = w.fetcher) :
      Work setup w (.retrieved token) w'
        (waiters.map fun waiter => .settled waiter.locator waiter.barrier)

namespace World

variable {w : World}

theorem arrive_arrival {w' : World} {b : BarrierId} {loaded : Option RecordId}
    (kept : Kept w.loader w'.loader) (barriers : w'.loader.barriers = w.loader.barriers)
    (fetcher : w'.fetcher = w.fetcher) (saved : ∀ r, loaded = some r → .saved ≤ w.loader.status r) :
    Arrival w b loaded (w'.arrive b loaded).1 (w'.arrive b loaded).2 := by
  obtain ⟨raised, ready, others⟩ := Loader.arrive_raised (l := w'.loader)
    (fun r some => (kept.status r).symm ▸ saved r some) b
  obtain ⟨counted, -⟩ := w'.arrive_counted b loaded
  refine ⟨kept.raised.trans raised, ready, ?_, fetcher, counted.of_barriers barriers⟩
  intro x other
  exact (others x other).trans (kept.status x)

end World

namespace Plain

variable {setup : Setup} {w : World} {rest : List Frame} {os : List Occurrence}

/-- What is known of a retrieval that is about to be finished. -/
theorem retrieving {token : FetchToken} (plain : Plain setup (.retrieved token :: rest) w)
    (tracked : Tracked os (Machine.tokens ⟨w, .retrieved token :: rest⟩) w.loader)
    (resourced : ∀ t ∈ underWay os, t.resource = .ofLocator t.locator) :
    ∃ r waiters, w.loader.entry? token.locator = some r ∧ w.loader.status r = .fetching ∧
      token.resource = .ofLocator token.locator ∧
      w.loader.ledger.inFlight.get? token.resource = some waiters ∧
      ∀ waiter ∈ waiters, waiter.locator = token.locator := by
  have under : token ∈ underWay os := tracked.outstanding.subset (List.mem_cons_self ..)
  have resource := resourced token under
  obtain ⟨waiters, flying⟩ :=
    Option.isSome_iff_exists.mp ((tracked.flying _).mpr (List.mem_map_of_mem under))
  obtain ⟨r, fetching, here, waiting⟩ := plain.tabular.grounded flying
  have locator := PhysicalId.ofLocator_inj (resource.symm.trans here)
  refine ⟨r, waiters, ?_, fetching, resource, flying, ?_⟩
  · rw [locator]
    exact plain.tabular.entered (by rw [fetching]; exact Status.noConfusion)
  · rw [locator]
    exact waiting

theorem enter_work {locator : Locator} {later : List Locator} {b : BarrierId}
    (plain : Plain setup (.entries (locator :: later) b :: rest) w) (sound : Sound w.loader)
    (listed : setup.Listed) (answers : setup.policy.Answers) :
    Work setup w (.entries (locator :: later) b) (w.enter locator b).1
      ((w.enter locator b).2 ++ [.entries later b]) := by
  have unnamed := plain.unnamed rfl
  cases held : w.loader.entry? locator with
  | none =>
    rw [World.enter_absent plain.tabular listed held]
    obtain ⟨queued, same⟩ | ⟨anonymous, awaited, -, same⟩ := World.retrieve_listed
      (w := { w with loader := w.loader.requested locator b }) (plain.policy ▸ answers)
      (plain.offers locator) unnamed
    · rw [same]
      refine .asked locator later b held none ?_ rfl rfl rfl (.inl ⟨rfl, rfl, queued, rfl⟩)
      exact congrArg (fun anonymous => { w.loader.requested locator b with anonymous }) unnamed
    · rw [same]
      exact .asked locator later b held anonymous rfl rfl rfl rfl (.inr ⟨rfl, awaited, rfl⟩)
  | some r =>
    by_cases fetched : .fetched ≤ w.loader.status r
    · rw [World.enter_over held fetched]
      exact .ended locator later b ⟨r, held, fetched⟩
    · have fetching : w.loader.status r = .fetching := by
        have known := sound.known held
        revert known fetched
        cases w.loader.status r <;> simp_all [Status.le_iff, Status.code]
      obtain ⟨waiters, flying, same⟩ := World.enter_flying (b := b) plain.tabular listed held fetching
      rw [same]
      exact .joined locator later b waiters flying rfl rfl

/-- The work of each frame is one of these kinds. -/
theorem work {frame : Frame} (plain : Plain setup (frame :: rest) w) (sound : Sound w.loader)
    (listed : setup.Listed) (answers : setup.policy.Answers)
    (tracked : Tracked os (Machine.tokens ⟨w, frame :: rest⟩) w.loader)
    (resourced : ∀ t ∈ underWay os, t.resource = .ofLocator t.locator) :
    Work setup w frame (frame.exec w).1 (frame.exec w).2 := by
  obtain ⟨isPlain, backed⟩ := plain.frames frame (List.mem_cons_self ..)
  cases frame with
  | load locators onDone =>
    simp only [Frame.exec, World.load]
    by_cases none : (locators.filter w.loader.needsLoading).isEmpty = true
    · rw [if_pos none]
      refine .skipped locators onDone fun d member => ?_
      rw [List.isEmpty_iff, List.filter_eq_nil_iff] at none
      exact Bool.not_eq_true _ ▸ none d member
    · rw [if_neg none]
      exact .opened locators onDone rfl rfl
  | entries locators b =>
    cases locators with
    | nil => exact .relayed (.emptied b) rfl rfl
    | cons locator later => exact plain.enter_work sound listed answers
  | settled locator b =>
    have kept := w.loader.settledEntry_kept locator
    have quiet := (w.loader.settledEntry_edits locator).quiet id
    obtain ⟨r, held, fetched⟩ := backed
    simp only [Frame.exec, World.settle]
    have read := w.loader.settledEntry_cases held
    generalize w.loader.settledEntry locator = entry at kept quiet read ⊢
    obtain ⟨l, entry⟩ := entry
    have same : Kept w.loader (World.loader { w with loader := l }) := kept
    obtain ⟨below, rfl⟩ | ⟨saved, ⟨bare, rfl⟩ | ⟨-, rfl⟩⟩ := read
    · refine .missing locator b r held ?_
        (World.arrive_arrival same quiet.barriers rfl fun r none => by cases none)
      revert below fetched
      cases w.loader.status r <;> simp [Status.le_iff, Status.lt_iff, Status.code]
    · refine .ready locator b r held saved bare (World.arrive_arrival same quiet.barriers rfl ?_)
      intro x here
      cases here
      exact saved
    · exact .waits locator b r held saved same rfl quiet.barriers
  | resume next =>
    cases next with
    | arrive b r =>
      refine .arrived b r backed (World.arrive_arrival (.refl _) rfl rfl ?_)
      intro x here
      cases here
      exact backed
    | request ids receiver => exact .relayed (.begun ids receiver) rfl rfl
    | preload locators receiver => exact .relayed (.loaded locators receiver) rfl rfl
    | gather locators receiver => exact .relayed (.gathered locators receiver) rfl rfl
    | call callback => cases isPlain
  | request referrer ids receiver =>
    simp only [Frame.isPlain, Bool.and_eq_true, Option.isNone_iff_eq_none] at isPlain
    obtain ⟨rfl, -⟩ := isPlain
    have wanted : (ids.map (w.loader.resolve · none)).filterMap id = setup.wanted ids := by
      rw [List.filterMap_map]
      exact plain.tabular.wanted ids
    simp only [Frame.exec, wanted]
    exact .relayed (.requested ids receiver _ (List.length_map _)) rfl rfl
  | preload next =>
    have none : w.preload next = (w, [.resume next]) := by
      rw [World.preload, plain.tabular.preloads]
    simp only [Frame.exec, none]
    exact .relayed (.preloaded next) rfl rfl
  | gather locators interfaces receiver =>
    cases locators with
    | nil => exact .relayed (.delivered interfaces receiver) rfl rfl
    | cons locator later =>
      simp only [Frame.exec, World.gather]
      cases locator.bind w.loader.entry? with
      | some r => exact .relayed (.compiles locator later interfaces receiver r) rfl rfl
      | none => exact .relayed (.passed locator later interfaces receiver) rfl rfl
  | collect locators interfaces receiver =>
    exact .relayed (.collected locators interfaces receiver w.answer) rfl rfl
  | deliver receiver interfaces =>
    cases receiver with
    | discard next => cases isPlain
    | host callback =>
      obtain ⟨loader, fetcher, -⟩ := World.bindArguments_same
        (w.write callback.place "callback" (some (.many (interfaces.map w.displayOption)))) interfaces
      exact .relayed (.called callback interfaces) loader fetcher
  | retrieved token =>
    obtain ⟨r, waiters, held, fetching, resource, flying, waiting⟩ := plain.retrieving tracked resourced
    have landed := Loader.finishFetch_landed sound token
    obtain ⟨retrieved, all⟩ :=
      Loader.finishFetch_listed plain.tabular fetching held plain.named flying waiting
    simp only [Frame.exec, World.finishFetch, all]
    exact .finished token r waiters held fetching resource flying waiting landed retrieved rfl
  | _ =>
    refine .quiet rfl (World.quiet_move plain.tabular (plain.unnamed rfl) plain.offers ?_ rfl isPlain backed)
    intro token queued
    refine resourced token (tracked.outstanding.subset ?_)
    exact List.mem_append_right _ (List.mem_append_left _ queued)

end Plain

end ModuleLoader
