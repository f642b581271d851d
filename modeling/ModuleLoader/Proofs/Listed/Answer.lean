import ModuleLoader.Proofs.Listed.Termination

/-! How a single request is answered. Whatever the order in which queued retrievals are completed, the
session comes to an end, and its callback has been called by then. -/
namespace ModuleLoader

open Loader (Still Toll)

/-- There is something to complete for an action of the host. -/
def Action.Finds (w : World) : Action → Prop
  | .complete resource => ∃ token ∈ w.fetcher.queue, token.resource = resource
  | .completeNext | .completeAll => w.fetcher.queue ≠ []
  | _ => False

/-- The machine works, and at rest the host completes retrievals that are queued. -/
inductive Machine.Follows : Machine → Machine → Prop where
  | work {m next : Machine} (stepped : m.step? = some next) : Follows m next
  | complete {w : World} (action : Action) (finds : action.Finds w) :
      Follows ⟨w, []⟩ ⟨w, [.script .outer [action]]⟩

/-- All that can follow comes to an end. -/
def Machine.Ends (m : Machine) : Prop := Acc (fun next m => Follows m next) m

theorem Machine.Follows.of_busy {m next : Machine} (follows : m.Follows next) (busy : m.stack ≠ []) :
    m.step? = some next := by
  cases follows with
  | work stepped => exact stepped
  | complete => exact absurd rfl busy

theorem Action.Finds.completes {w : World} {action : Action} (finds : action.Finds w) :
    action.completes = true := by
  cases action <;> first | rfl | cases finds

theorem Action.Finds.nonempty {w : World} {action : Action} (finds : action.Finds w) :
    w.fetcher.queue ≠ [] := by
  cases action with
  | complete resource =>
    obtain ⟨token, queued, -⟩ := finds
    exact List.ne_nil_of_mem queued
  | completeNext | completeAll => exact finds
  | _ => cases finds

namespace World

variable {w : World}

theorem completeTaken_takes (policy : w.fetcher.policy = .queued) (site : Site) (name : String)
    {taken : Option (World × FetchToken)} (there : taken.isSome = true)
    (spec : ∀ w' token, taken = some (w', token) →
      token ∈ w.fetcher.queue ∧ w' = { w with fetcher.queue := w.fetcher.queue.erase token }) :
    (w.completeTaken site name taken).1.fetcher.queue ≠ w.fetcher.queue := by
  obtain ⟨⟨w', token⟩, rfl⟩ := Option.isSome_iff_exists.mp there
  obtain ⟨queued, rfl⟩ := spec w' token rfl
  rw [completeTaken, if_neg (not_not_intro policy)]
  exact fun same => List.erase_eq_self_iff.mp same queued

theorem takeNext?_isSome (nonempty : w.fetcher.queue ≠ []) : w.takeNext?.isSome = true := by
  unfold takeNext?
  split
  · rfl
  · exact absurd ‹_› nonempty

theorem takeQueued?_isSome {token : FetchToken} (queued : token ∈ w.fetcher.queue) :
    (w.takeQueued? token.resource).isSome = true := by
  unfold takeQueued?
  split
  · rfl
  · rename_i none
    have other := List.find?_eq_none.mp none token queued
    exact absurd (decide_eq_true rfl) other

/-- Completing what is queued takes it from the queue, or begins to take all of it. -/
theorem complete_takes (policy : w.fetcher.policy = .queued) {action : Action} (finds : action.Finds w) :
    (Frame.exec w (.script .outer [action])).1.fetcher.queue ≠ w.fetcher.queue ∨
      Frame.exec w (.script .outer [action]) = (w, [.completeRest .outer 0, .script .outer []]) := by
  cases action with
  | complete resource =>
    obtain ⟨token, queued, rfl⟩ := finds
    exact .inl (completeTaken_takes policy .outer _ (takeQueued?_isSome queued)
      fun _ _ taken => takeQueued?_taken taken)
  | completeNext =>
    exact .inl (completeTaken_takes policy .outer _ (takeNext?_isSome finds)
      fun _ _ taken => takeNext?_taken taken)
  | completeAll =>
    refine .inr ?_
    simp only [Frame.exec, runScript, act, endsScript, policy, if_true, Bool.false_eq_true, if_false,
      List.singleton_append]
  | _ => cases finds

theorem completeRest_takes (nonempty : w.fetcher.queue ≠ []) (site : Site) (done : Nat) :
    (Frame.exec w (.completeRest site done)).1.fetcher.queue ≠ w.fetcher.queue := by
  obtain ⟨⟨w', token⟩, taken⟩ := Option.isSome_iff_exists.mp (takeNext?_isSome nonempty)
  obtain ⟨queued, rfl⟩ := takeNext?_taken taken
  simp only [Frame.exec, taken]
  exact fun same => List.erase_eq_self_iff.mp same queued

end World

/-- A moment after the request has been passed on, while the host only completes retrievals. -/
def Machine.Going (setup : Setup) (ids : List String) (tag : String) (body : Script) (m : Machine) :
    Prop :=
  ∃ past, Run (·.completes = true) (.asked setup ids tag body) past m ∧
    OneRequest setup ids (past ++ [.fresh setup]) m

section

variable {setup : Setup} (listed : setup.Listed) (answers : setup.policy.Answers) {ids : List String}
  {tag : String} {body : Script} (isLocal : body.all Action.isLocal = true) {m next : Machine}

namespace Machine

open Machine (Going Follows)

include listed answers isLocal

theorem Going.policy (going : Going setup ids tag body m) (nonempty : m.world.fetcher.queue ≠ []) :
    m.world.fetcher.policy = .queued := by
  obtain ⟨past, run, -⟩ := going
  exact (booked_always listed answers (run.of_asked isLocal)).queued nonempty

theorem Going.proper (going : Going setup ids tag body m) : m.world.loader.Proper := by
  obtain ⟨past, run, -⟩ := going
  exact (session_always listed answers (run.of_asked isLocal)).plain.tabular.own

theorem Going.follows (going : Going setup ids tag body m) (follows : m.Follows next) :
    Going setup ids tag body next := by
  obtain ⟨past, run, one⟩ := going
  cases follows with
  | work stepped =>
    refine ⟨m :: past, run.work stepped, ?_⟩
    obtain ⟨w, stack⟩ := m
    cases stack with
    | nil => cases stepped
    | cons frame rest =>
      cases stepped
      exact one.step (session_always listed answers (run.of_asked isLocal)) listed answers
  | complete action finds =>
    exact ⟨_, run.act action finds.completes, one.acted finds.completes⟩

/-- Each step comes closer to the end. -/
theorem Going.closer (going : Going setup ids tag body m) (stepped : m.step? = some next)
    {toll : Locator → Nat} (paid : Toll m.world.loader toll) :
    Closer setup (setup.horizon ids) toll m next := by
  have further := going.follows listed answers isLocal (.work stepped)
  obtain ⟨past, run, one⟩ := going
  obtain ⟨later, -, after⟩ := further
  have session := session_always listed answers (run.of_asked isLocal)
  obtain ⟨w, stack⟩ := m
  cases stack with
  | nil => cases stepped
  | cons frame rest =>
    cases stepped
    have work := session.work listed answers
    exact work.closer session (frame.effect session.tracked.sound) (one.idle frame (List.mem_cons_self ..))
      (fun d registered => (after.registered d registered).mem_horizon) paid

/-- Completing what is queued leads nearer to the end. -/
theorem Going.completed {w : World} (going : Going setup ids tag body ⟨w, []⟩) {action : Action}
    (finds : action.Finds w) {toll : Locator → Nat} (paid : Toll w.loader toll)
    (ends : ∀ next, Going setup ids tag body next → w.Nearer (setup.horizon ids) next.world →
      next.Ends) : Ends ⟨w, [.script .outer [action]]⟩ := by
  have policy : w.fetcher.policy = .queued := going.policy listed answers isLocal finds.nonempty
  have begun := going.follows listed answers isLocal (.complete action finds)
  constructor
  intro second follows
  have stepped := follows.of_busy (List.cons_ne_nil _ _)
  have after := begun.follows listed answers isLocal follows
  obtain nearer | ⟨-, queue, -⟩ := begun.closer listed answers isLocal stepped paid
  · exact ends second after nearer
  -- Nothing has been taken yet, so all that is queued is to be taken.
  obtain taken | all := World.complete_takes policy finds
  · cases stepped
    exact absurd queue taken
  have here : second = ⟨w, [.completeRest .outer 0, .script .outer []]⟩ := by
    rw [Machine.step?_cons, all] at stepped
    exact (Option.some.inj stepped).symm
  subst here
  constructor
  intro third follows
  have stepped := follows.of_busy (List.cons_ne_nil _ _)
  obtain nearer | ⟨-, queue, -⟩ := after.closer listed answers isLocal stepped paid
  · exact ends third (after.follows listed answers isLocal follows) nearer
  · cases stepped
    exact absurd queue (World.completeRest_takes finds.nonempty .outer 0)

theorem Going.ends (going : Going setup ids tag body m) : m.Ends := by
  induction here : m.world.loader.ahead (setup.horizon ids) using Nat.strongRecOn generalizing m with
  | ind stages further =>
    obtain ⟨toll, paid⟩ := Loader.exists_toll (Loader.Proper.clear (going.proper listed answers isLocal))
    -- The tolls are the same until the next module moves on.
    induction length : m.world.fetcher.queue.length using Nat.strongRecOn generalizing m with
    | ind queued shorter =>
      have nearer {w : World} (same : w.loader.ahead (setup.horizon ids) = stages)
          (paid : Toll w.loader toll) (length : w.fetcher.queue.length = queued) (next : Machine)
          (going : Going setup ids tag body next) (nearer : w.Nearer (setup.horizon ids) next.world) :
          next.Ends := by
        cases nearer with
        | advanced less => exact further _ (same ▸ less) going rfl
        | taken still less =>
          exact shorter _ (length ▸ less) going ((still.ahead _).trans same) (still.toll paid) rfl
      induction cost : ModuleLoader.effort setup m.world.loader.needsLoading toll m.stack m.world.loader
        using Nat.strongRecOn generalizing m with
      | ind left less =>
        constructor
        intro next follows
        have after := going.follows listed answers isLocal follows
        cases follows with
        | work stepped =>
          obtain closer | ⟨still, queue, cheaper⟩ := going.closer listed answers isLocal stepped paid
          · exact nearer here paid length next after closer
          · rw [cost, ← still.needsLoading] at cheaper
            exact less _ cheaper after ((still.ahead _).trans here) (still.toll paid)
              ((congrArg List.length queue).trans length) rfl
        | complete action finds =>
          exact Going.completed listed answers isLocal going finds paid (nearer here paid length)

end Machine

include listed answers isLocal

theorem Machine.asked_ends : (Machine.asked setup ids tag body).Ends := by
  constructor
  intro next follows
  have stepped := follows.of_busy (List.cons_ne_nil _ _)
  have run : Run (·.completes = true) (.asked setup ids tag body) [_] next := .work .start stepped
  obtain ⟨none, -⟩ | one := one_request_always listed answers isLocal run
  · cases none
  · exact Machine.Going.ends listed answers isLocal ⟨_, run, one⟩

end

/-! What has happened in the end. -/

section

variable {setup : Setup} {ids : List String} {tag : String} {body : Script} {past : List Machine}
  {m : Machine}

theorem passedOn_fresh (setup : Setup) (past : List Machine) :
    passedOn (occurrences (past ++ [.fresh setup])) = passedOn (occurrences past) := by
  rw [occurrences, List.map_append, passedOn, List.filterMap_append]
  exact List.append_nil _

theorem calledBack_fresh (setup : Setup) (past : List Machine) :
    calledBack (occurrences (past ++ [.fresh setup])) = calledBack (occurrences past) := by
  rw [occurrences, List.map_append, calledBack, List.filterMap_append]
  exact List.append_nil _

theorem Booked.requested_once (booked : Booked past m) :
    (m.world.fetcher.requests.toList.map FetchRequest.resource).Nodup := by
  rw [booked.requests]
  exact m.world.loader.registry.nodup.map fun _ _ => PhysicalId.ofLocator_inj

/-- Where nothing is left to do and nothing is queued, no retrieval is under way. -/
theorem Booked.grounded (booked : Booked past m) (rest : m.stack = [])
    (empty : m.world.fetcher.queue = []) : m.world.loader.ledger.inFlight.isEmpty = true := by
  cases flying : m.world.loader.ledger.inFlight.entries with
  | nil => exact List.isEmpty_iff.mpr flying
  | cons entry later =>
    have key : entry.1 ∈ m.world.loader.ledger.inFlight.keys := by
      rw [OrderedMap.keys, flying]
      exact List.mem_cons_self ..
    obtain ⟨token, queued | retrieved, -⟩ := booked.served entry.1 ((OrderedMap.mem_keys_iff ..).mp key)
    · rw [empty] at queued
      cases queued
    · rw [rest] at retrieved
      cases retrieved

theorem Run.called_at_most_once (listed : setup.Listed) (answers : setup.policy.Answers)
    (isLocal : body.all Action.isLocal = true)
    (run : Run (·.completes = true) (.asked setup ids tag body) past m) :
    (calledBack (occurrences past)).Subperm [0] := by
  obtain ⟨rfl, -⟩ | one := one_request_always listed answers isLocal run
  · exact List.nil_subperm
  · have session := session_always listed answers (run.of_asked isLocal)
    rw [← calledBack_fresh setup, ← one.passed]
    exact session.linked.called_subperm

/-- When nothing is left to do and nothing is queued, the callback has been called, and all that the
request reaches was done by then. -/
theorem Run.answered (listed : setup.Listed) (answers : setup.policy.Answers)
    (isLocal : body.all Action.isLocal = true)
    (run : Run (·.completes = true) (.asked setup ids tag body) past m) (rest : m.stack = [])
    (empty : m.world.fetcher.queue = []) :
    passedOn (occurrences past) = [0] ∧ calledBack (occurrences past) = [0] ∧
      ∀ d, setup.Reachable (setup.wanted ids) d → m.world.loader.Registered d := by
  have whole := run.of_asked isLocal
  have booked := booked_always listed answers whole
  have linked := (session_always listed answers whole).linked
  obtain ⟨-, rfl⟩ | one := one_request_always listed answers isLocal run
  · cases rest
  rw [rest] at linked
  have called : calledBack (occurrences past) = [0] := by
    rw [← calledBack_fresh setup]
    exact List.perm_singleton.mp (one.passed ▸ linked.called_perm (booked.grounded rest empty))
  refine ⟨(passedOn_fresh setup past).symm.trans one.passed, called, fun d reachable => ?_⟩
  have member : 0 ∈ calledBack (occurrences past) := called ▸ List.mem_cons_self ..
  obtain ⟨o, there, calls⟩ := List.mem_filterMap.mp member
  obtain ⟨moment, passed, rfl⟩ := List.mem_map.mp there
  obtain ⟨later, earlier, rfl, origin⟩ := run.at_moment passed
  have here : moment.occurrence = .called 0 := by
    cases same : moment.occurrence with
    | called number =>
      rw [same] at calls
      cases calls
      rfl
    | _ =>
      rw [same] at calls
      cases calls
  obtain ⟨r, held, -⟩ := origin.done_of_called listed answers isLocal here d reachable
  exact booked.lasting moment (List.mem_append_left _ passed) d ⟨r, held⟩

/-- A single request is answered, in whatever order the queued retrievals are completed. The session
comes to an end; it asks for nothing twice and for nothing that the request does not reach; the callback
is called when all that the request reaches is done, once, and in the end all of that has been asked for. -/
theorem one_request_answered (listed : setup.Listed) (answers : setup.policy.Answers) (ids : List String)
    (tag : String) (isLocal : body.all Action.isLocal = true) :
    (Machine.asked setup ids tag body).Ends ∧
    ∀ past m, Run (·.completes = true) (.asked setup ids tag body) past m →
      (m.world.fetcher.requests.toList.map FetchRequest.resource).Nodup ∧
      m.world.fetcher.requests.toList.map FetchRequest.resource =
        m.world.loader.registry.keys.map .ofLocator ∧
      (∀ d, m.world.loader.Registered d → setup.Reachable (setup.wanted ids) d) ∧
      (calledBack (occurrences past)).Subperm [0] ∧
      (∀ number, m.occurrence = .called number →
        ∀ d, setup.Reachable (setup.wanted ids) d → setup.Done m.world.loader d) ∧
      (m.stack = [] → m.world.fetcher.queue = [] →
        passedOn (occurrences past) = [0] ∧ calledBack (occurrences past) = [0] ∧
        ∀ d, setup.Reachable (setup.wanted ids) d → m.world.loader.Registered d) := by
  refine ⟨Machine.asked_ends listed answers isLocal, fun past m run => ?_⟩
  have booked := booked_always listed answers (run.of_asked isLocal)
  refine ⟨booked.requested_once, booked.requests, ?_, run.called_at_most_once listed answers isLocal,
    fun number called => run.done_of_called listed answers isLocal called,
    run.answered listed answers isLocal⟩
  intro d registered
  obtain ⟨-, rfl⟩ | one := one_request_always listed answers isLocal run
  · obtain ⟨loader, -⟩ := World.start_spec setup
    obtain ⟨r, held⟩ := registered
    change (World.start setup).loader.entry? d = some r at held
    rw [loader] at held
    cases held
  · exact one.registered d registered

end

/-- Among the modules that are asked for, `d` and `x` need each other. -/
theorem one_request_answered_entangled :
    (Machine.asked .entangled ["m", "c"] "" []).Ends ∧
    ∃ past m, Run (·.completes = true) (.asked .entangled ["m", "c"] "" []) past m ∧ m.stack = [] ∧
      m.world.fetcher.queue = [] ∧ calledBack (occurrences past) = [0] ∧
      m.world.loader.registry.keys = [⟨"mem:m"⟩, ⟨"mem:c"⟩, ⟨"mem:d"⟩, ⟨"mem:x"⟩] := by
  have isLocal : List.all [] Action.isLocal = true := rfl
  obtain ⟨ends, always⟩ := one_request_answered Setup.entangled_listed (.inl rfl) ["m", "c"] "" isLocal
  have asked : Run (·.completes = true) (.asked .entangled ["m", "c"] "" []) [] _ := .start
  have begun := asked.continued 40
  have still : Machine.run 40 (.asked .entangled ["m", "c"] "" []) =
      ⟨(Machine.run 40 (.asked .entangled ["m", "c"] "" [])).world, []⟩ :=
    congrArg (Machine.mk _) (List.isEmpty_iff.mp (by decide +kernel))
  rw [still] at begun
  have run := begun.played 80 [.complete ⟨"mem:c"⟩, .completeNext, .completeAll] (by decide)
    (by decide +kernel)
  obtain ⟨-, -, -, -, -, answered⟩ := always _ _ run
  refine ⟨ends, _, _, run, rfl, ?_, (answered rfl ?_).2.1, ?_⟩
  · decide +kernel
  · decide +kernel
  · decide +kernel

end ModuleLoader
