import ModuleLoader.Proofs.Listed.Waiting

/-! The books that a session over a table keeps: what has been asked for, what can still be answered,
and on whose behalf modules are compiled. -/
namespace ModuleLoader

open Loader (Sound Kept Tabular)

/-- Modules are compiled for the sake of a request that waits for their interfaces. -/
def Covered : List Frame → Prop
  | [] => True
  | f :: rest =>
    (f.compiles = true → ∃ locators interfaces receiver, .collect locators interfaces receiver ∈ rest) ∧
      Covered rest

theorem Covered.cons {f : Frame} {rest : List Frame} (none : f.compiles = false) (covered : Covered rest) :
    Covered (f :: rest) :=
  ⟨fun compiles => absurd (none.symm.trans compiles) Bool.false_ne_true, covered⟩

theorem Covered.append {frames rest : List Frame} (covered : Covered rest)
    (new : ∀ f ∈ frames, f.compiles = true →
      ∃ locators interfaces receiver, .collect locators interfaces receiver ∈ rest) :
    Covered (frames ++ rest) := by
  induction frames with
  | nil => exact covered
  | cons f frames ih =>
    refine ⟨fun compiles => ?_, ih fun g member => new g (List.mem_cons_of_mem _ member)⟩
    obtain ⟨locators, interfaces, receiver, there⟩ := new f (List.mem_cons_self ..) compiles
    exact ⟨locators, interfaces, receiver, List.mem_append_right _ there⟩

/-- Somebody can still complete the retrieval of a resource. -/
def Served (stack : List Frame) (w : World) (p : PhysicalId) : Prop :=
  ∃ token, (token ∈ w.fetcher.queue ∨ .retrieved token ∈ stack) ∧ token.resource = p

/-- What is in somebody's hands stays there as long as no end of it is played. -/
theorem Served.later {w w' : World} {frame : Frame} {frames rest : List Frame} {p : PhysicalId}
    (served : Served (frame :: rest) w p)
    (handed : ∀ token ∈ w.fetcher.queue, token ∈ w'.fetcher.queue ∨ .retrieved token ∈ frames)
    (other : ∀ token, frame = .retrieved token → token.resource ≠ p) : Served (frames ++ rest) w' p := by
  obtain ⟨token, queued | retrieved, same⟩ := served
  · exact ⟨token, (handed token queued).imp_right (List.mem_append_left _), same⟩
  · rcases List.mem_cons.mp retrieved with here | below
    · exact absurd same (other token here.symm)
    · exact ⟨token, .inr (List.mem_append_right _ below), same⟩

structure Booked (past : List Machine) (m : Machine) : Prop where
  requests : m.world.fetcher.requests.toList.map FetchRequest.resource =
    m.world.loader.registry.keys.map .ofLocator
  covered : Covered m.stack
  served : ∀ p, (m.world.loader.ledger.inFlight.get? p).isSome = true → Served m.stack m.world p
  queued : m.world.fetcher.queue ≠ [] → m.world.fetcher.policy = .queued
  lasting : ∀ moment ∈ past, ∀ d, moment.world.loader.Registered d → m.world.loader.Registered d

namespace Work

variable {setup : Setup} {w w' : World} {frame : Frame} {frames rest : List Frame}

theorem requests (work : Work setup w frame w' frames)
    (before : w.fetcher.requests.toList.map FetchRequest.resource =
      w.loader.registry.keys.map .ofLocator) :
    w'.fetcher.requests.toList.map FetchRequest.resource =
      w'.loader.registry.keys.map .ofLocator := by
  obtain ⟨registry, requests⟩ | ⟨locator, later, b, -, absent, registry, requests, -⟩ := work.registered
  · rw [registry, requests, before]
  · have new : locator ∉ w.loader.registry.keys := by
      rw [OrderedMap.mem_keys_iff]
      intro there
      rw [show w.loader.registry.get? locator = none from absent] at there
      cases there
    rw [registry, requests, OrderedMap.keys_insert, if_neg new, Array.toList_push, List.map_append,
      List.map_append, before]
    rfl

theorem covered (work : Work setup w frame w' frames) (before : Covered (frame :: rest)) :
    Covered (frames ++ rest) := by
  obtain ⟨here, below⟩ := before
  have aside {l : Loader} {fs : List Frame} (all : ∀ f ∈ fs, f.Aside frame l) : ∀ f ∈ fs,
      f.compiles = true → ∃ locators interfaces receiver, .collect locators interfaces receiver ∈ rest :=
    fun f member compiles => here ((all f member).compiles compiles)
  have alone {fs : List Frame} (none : ∀ f ∈ fs, f.compiles = false) : Covered (fs ++ rest) := by
    refine below.append fun f member compiles => ?_
    rw [none f member] at compiles
    cases compiles
  have resumed {b : BarrierId} {loaded : Option RecordId} (arrival : Arrival w b loaded w' frames) :
      Covered (frames ++ rest) := by
    refine alone fun f member => ?_
    obtain ⟨next, rfl, -⟩ := arrival.resumes f member
    rfl
  cases work with
  | quiet isQuiet move =>
    cases move with
    | still kept fetcher all => exact below.append (aside all)
    | compiling r same saved under raised only fetcher all => exact below.append (aside all)
    | compiled r same raised only fetcher all => exact below.append (aside all)
    | asked site ids tag body later same =>
      subst same
      refine below.append fun f member compiles => ?_
      simp only [List.mem_cons, List.not_mem_nil, or_false] at member
      rcases member with rfl | rfl | rfl
      · cases compiles
      · exact here compiles
      · exact here compiles
    | taken token anonymous queued awaited loader queue all =>
      exact .cons rfl (below.append (aside all))
  | relayed relay =>
    cases relay with
    | compiles locator locators interfaces receiver r =>
      exact ⟨fun _ => ⟨locators, interfaces, receiver, List.mem_cons_self ..⟩, below.cons rfl⟩
    | emptied => exact below
    | _ => exact .cons rfl below
  | skipped | opened | joined | waits => exact .cons rfl below
  | ended => exact .cons rfl (.cons rfl below)
  | asked locator later b absent anonymous loader files policy requests handed =>
    obtain ⟨rfl, -⟩ | ⟨rfl, -⟩ := handed
    · exact .cons rfl below
    · exact .cons rfl (.cons rfl below)
  | missing locator b r held fetched arrival => exact resumed arrival
  | ready locator b r held saved bare arrival => exact resumed arrival
  | arrived b r saved arrival => exact resumed arrival
  | finished token r waiters =>
    refine alone fun f member => ?_
    obtain ⟨waiter, -, rfl⟩ := List.mem_map.mp member
    rfl

/-- A queued retrieval is answered, or one is queued behind the others. -/
theorem queue (work : Work setup w frame w' frames) :
    w'.fetcher.queue = w.fetcher.queue ∨
      (∃ token ∈ w.fetcher.queue, w'.fetcher.queue = w.fetcher.queue.erase token ∧
        .retrieved token ∈ frames) ∨
      w.fetcher.policy = .queued ∧ ∃ token, w'.fetcher.queue = w.fetcher.queue ++ [token] := by
  have still (same : w'.fetcher = w.fetcher) : w'.fetcher.queue = w.fetcher.queue := by rw [same]
  cases work with
  | quiet isQuiet move =>
    cases move with
    | taken token anonymous there awaited loader queue =>
      exact .inr (.inl ⟨token, there, by rw [queue], List.mem_cons_self ..⟩)
    | still same fetcher => exact .inl (still fetcher)
    | compiling r here saved below raised only fetcher => exact .inl (still fetcher)
    | compiled r here raised only fetcher => exact .inl (still fetcher)
    | asked site ids tag body later here loader fetcher => exact .inl (still fetcher)
  | relayed relay loader fetcher => exact .inl (still fetcher)
  | skipped | ended => exact .inl rfl
  | opened locators next loader fetcher => exact .inl (still fetcher)
  | joined locator later b waiters there loader fetcher => exact .inl (still fetcher)
  | asked locator later b absent anonymous loader files same requests handed =>
    obtain ⟨-, -, policy, queue⟩ | ⟨-, -, queue⟩ := handed
    · exact .inr (.inr ⟨policy, _, queue⟩)
    · exact .inl queue
  | missing locator b r held fetched arrival => exact .inl (still arrival.fetcher)
  | ready locator b r held saved bare arrival => exact .inl (still arrival.fetcher)
  | waits locator b r held saved same fetcher => exact .inl (still fetcher)
  | arrived b r saved arrival => exact .inl (still arrival.fetcher)
  | finished token r waiters held fetching resource there waiting landed retrieved fetcher =>
    exact .inl (still fetcher)

/-- A retrieval is on its way since before, and no end of it is played, or it is begun and handed out. -/
theorem flying (work : Work setup w frame w' frames) {p : PhysicalId}
    (flying : (w'.loader.ledger.inFlight.get? p).isSome = true) :
    (w.loader.ledger.inFlight.get? p).isSome = true ∧
        (∀ token, frame = .retrieved token → token.resource ≠ p) ∨
      ∃ token, (token ∈ w'.fetcher.queue ∨ .retrieved token ∈ frames) ∧ token.resource = p := by
  have still (ledger : w'.loader.ledger = w.loader.ledger) (other : frame.token? = none) :
      (w.loader.ledger.inFlight.get? p).isSome = true ∧
        ∀ token, frame = .retrieved token → token.resource ≠ p :=
    ⟨ledger ▸ flying, fun token here => by cases here; cases other⟩
  cases work with
  | quiet isQuiet move =>
    refine .inl (still move.steady.1.ledger ?_)
    cases frame <;> first | rfl | cases isQuiet
  | relayed relay loader => exact .inl (still (by rw [loader]) (by cases relay <;> rfl))
  | skipped | ended => exact .inl (still rfl rfl)
  | opened locators next loader => exact .inl (still (by rw [loader]; rfl) rfl)
  | joined locator later b waiters there loader =>
    rw [loader] at flying
    change ((w.loader.ledger.inFlight.insert _ _).get? p).isSome = true at flying
    rw [OrderedMap.get?_insert] at flying
    refine .inl ⟨?_, fun _ => Frame.noConfusion⟩
    split at flying
    · rename_i here
      rw [← here, there]
      rfl
    · exact flying
  | asked locator later b absent anonymous loader files policy requests handed =>
    rw [loader] at flying
    change ((w.loader.ledger.inFlight.insert _ _).get? p).isSome = true at flying
    rw [OrderedMap.get?_insert] at flying
    split at flying
    · rename_i here
      refine .inr ⟨⟨.ofLocator locator, locator⟩, ?_, here⟩
      obtain ⟨-, -, -, queue⟩ | ⟨rfl, -⟩ := handed
      · rw [queue]
        exact .inl (List.mem_append_right _ (List.mem_cons_self ..))
      · exact .inr (List.mem_cons_self ..)
    · exact .inl ⟨flying, fun _ => Frame.noConfusion⟩
  | missing locator b r held fetched arrival => exact .inl (still arrival.raised.ledger rfl)
  | ready locator b r held saved bare arrival => exact .inl (still arrival.raised.ledger rfl)
  | waits locator b r held saved same => exact .inl (still same.raised.ledger rfl)
  | arrived b r saved arrival => exact .inl (still arrival.raised.ledger rfl)
  | finished token r waiters held fetching resource there waiting landed retrieved =>
    rw [retrieved.ledger] at flying
    change ((w.loader.ledger.inFlight.erase _).get? p).isSome = true at flying
    rw [OrderedMap.get?_erase] at flying
    split at flying
    · cases flying
    · rename_i elsewhere
      exact .inl ⟨flying, fun _ here => by cases here; exact elsewhere⟩

/-- Retrievals stay in somebody's hands until they are over. -/
theorem served (work : Work setup w frame w' frames) {p : PhysicalId}
    (before : (w.loader.ledger.inFlight.get? p).isSome = true → Served (frame :: rest) w p)
    (now : (w'.loader.ledger.inFlight.get? p).isSome = true) : Served (frames ++ rest) w' p := by
  obtain ⟨flying, other⟩ | ⟨token, handed, same⟩ := work.flying now
  · refine (before flying).later (fun t queued => ?_) other
    obtain same | ⟨token, -, queue, retrieved⟩ | ⟨-, token, queue⟩ := work.queue
    · exact .inl (same ▸ queued)
    · by_cases this : t = token
      · exact .inr (this ▸ retrieved)
      · exact .inl (queue ▸ (List.mem_erase_of_ne this).mpr queued)
    · exact .inl (queue ▸ List.mem_append_left _ queued)
  · exact ⟨token, handed.imp_right (List.mem_append_left _), same⟩

theorem queued (work : Work setup w frame w' frames) (policy : w'.fetcher.policy = w.fetcher.policy)
    (before : w.fetcher.queue ≠ [] → w.fetcher.policy = .queued)
    (nonempty : w'.fetcher.queue ≠ []) : w'.fetcher.policy = .queued := by
  rw [policy]
  obtain same | ⟨token, there, -⟩ | ⟨queued, -⟩ := work.queue
  · exact before (same ▸ nonempty)
  · exact before (List.ne_nil_of_mem there)
  · exact queued

end Work

namespace Booked

theorem fresh (setup : Setup) : Booked [] (.fresh setup) := by
  obtain ⟨loader, inHand, -, -, requests⟩ := World.start_spec setup
  have idle : (World.start setup).fetcher.queue = [] := (List.append_eq_nil_iff.mp inHand).1
  refine ⟨?_, trivial, ?_, fun nonempty => absurd idle nonempty, fun moment member => (by cases member)⟩
  · rw [Machine.fresh, loader, requests]
    rfl
  · intro p flying
    rw [Machine.fresh, loader] at flying
    cases flying

theorem acted {past : List Machine} {w : World} (booked : Booked past ⟨w, []⟩) (action : Action) :
    Booked (⟨w, []⟩ :: past) ⟨w, [.script .outer [action]]⟩ := by
  refine ⟨booked.requests, Covered.cons rfl trivial, ?_, booked.queued, ?_⟩
  · intro p flying
    obtain ⟨token, queued | retrieved, same⟩ := booked.served p flying
    · exact ⟨token, .inl queued, same⟩
    · cases retrieved
  · intro moment member d registered
    rcases List.mem_cons.mp member with rfl | earlier
    · exact registered
    · exact booked.lasting moment earlier d registered

end Booked

theorem booked_always {setup : Setup} (listed : setup.Listed) (answers : setup.policy.Answers)
    {past : List Machine} {m : Machine} (run : Run (·.isPlain = true) (.fresh setup) past m) :
    Booked past m := by
  refine run.invariant (P := Booked) ?_ ?_ ?_
  · exact .fresh setup
  · intro past w frame rest run booked
    have session := session_always listed answers run
    have work := session.work listed answers
    have policy := (session.step listed answers).plain.policy.trans session.plain.policy.symm
    refine ⟨work.requests booked.requests, work.covered booked.covered,
      fun p => work.served (booked.served p), work.queued policy booked.queued, ?_⟩
    intro moment member d registered
    apply work.advances.registered
    rcases List.mem_cons.mp member with rfl | earlier
    · exact registered
    · exact booked.lasting moment earlier d registered
  · exact fun past w action _ _ booked => booked.acted action

end ModuleLoader
