import ModuleLoader.Proofs.Effects.Due
import ModuleLoader.Proofs.Listed.Request
import ModuleLoader.Proofs.Pruning

/-! A single request is over after finitely many steps. Either a module moves on, or a queued retrieval
is taken, or there is less left to do. -/
namespace ModuleLoader

open Loader (Kept Raised Retrieved Tabular Still Toll Advances tolls)

/-! How far modules are from being compiled. -/

/-- All the locators that a request can reach. -/
def Setup.horizon (setup : Setup) (ids : List String) : List Locator :=
  setup.wanted ids ++ setup.files.flatMap fun file => setup.dependenciesOf ⟨file.1.text⟩ file.2

theorem Setup.Reachable.mem_horizon {setup : Setup} {ids : List String} {d : Locator}
    (reachable : setup.Reachable (setup.wanted ids) d) : d ∈ setup.horizon ids := by
  cases reachable with
  | wanted member => exact List.mem_append_left _ member
  | @dependency module _ _ member =>
    refine List.mem_append_right _ (List.mem_flatMap.mpr ?_)
    unfold dependencies draft? at member
    cases found : setup.files.find? fun file => file.1 = .ofLocator module with
    | none =>
      rw [found] at member
      cases member
    | some file =>
      rw [found] at member
      have here : file.1 = .ofLocator module := by simpa using List.find?_some found
      refine ⟨file, List.mem_of_find?_eq_some found, ?_⟩
      rw [here]
      exact member

namespace Loader

/-- The stage that the module of a locator has reached. -/
def stage (l : Loader) (d : Locator) : Nat :=
  match l.entry? d with
  | some r => (l.status r).code
  | none => 0

/-- The stages that are still ahead of modules. -/
def ahead (l : Loader) (horizon : List Locator) : Nat := (horizon.map fun d => 6 - l.stage d).sum

variable {l l' : Loader} {horizon : List Locator}

theorem stage_le (l : Loader) (d : Locator) : l.stage d ≤ 6 := by
  unfold stage
  split
  · exact Status.le_compiled _
  · exact Nat.zero_le _

theorem Advances.stage (advances : Advances l l') (d : Locator) : l.stage d ≤ l'.stage d := by
  unfold Loader.stage
  cases held : l.entry? d with
  | none => exact Nat.zero_le _
  | some r =>
    rw [advances.entry held]
    exact advances.status r

theorem Advances.ahead_lt (advances : Advances l l') {d : Locator} (member : d ∈ horizon)
    (further : l.stage d < l'.stage d) : l'.ahead horizon < l.ahead horizon := by
  refine List.sum_lt_sum _ _ (fun e _ => ?_) ⟨d, member, ?_⟩
  · have rises := advances.stage e
    omega
  · have bound := l'.stage_le d
    omega

/-- A record that moves on has moved on for its locator. -/
theorem Advances.ahead_lt_of_status {setup : Setup} (advances : Advances l l')
    (tabular : Tabular setup l) {r : RecordId} (known : l.status r ≠ .unknown)
    (member : (l.record r).locator ∈ horizon) (other : l'.status r ≠ l.status r) :
    l'.ahead horizon < l.ahead horizon := by
  have held := tabular.entered known
  apply advances.ahead_lt member
  rw [Loader.stage, Loader.stage, held, advances.entry held]
  have rises : (l.status r).code ≤ (l'.status r).code := advances.status r
  have different : (l.status r).code ≠ (l'.status r).code := fun same =>
    other (Status.code_injective same).symm
  dsimp only
  omega

/-- Records that have only moved on have done so, or nothing has changed that waiting depends on. -/
theorem Raised.still_or_ahead {setup : Setup} (raised : Raised l l') (tabular : Tabular setup l)
    (within : ∀ d, l.Registered d → d ∈ horizon) :
    Still l l' ∨ l'.ahead horizon < l.ahead horizon := by
  have advances := raised.steady.advances
  by_cases same : ∀ r, l'.status r = l.status r
  · exact .inl ⟨raised.steady.registry, same, raised.locator, raised.dependencies⟩
  · obtain ⟨r, other⟩ := not_forall.mp same
    have saved : .saved ≤ l.status r := ((raised.status r).resolve_left other).1
    have known := Status.ne_unknown_of_le (a := .saved) (by decide) saved
    exact .inr (advances.ahead_lt_of_status tabular known (within _ ⟨r, tabular.entered known⟩) other)

theorem Still.ahead (still : Still l l') (horizon : List Locator) : l'.ahead horizon = l.ahead horizon := by
  have stage (d : Locator) : l'.stage d = l.stage d := by
    simp only [Loader.stage, still.entry, still.status]
  simp only [Loader.ahead, stage]

theorem Still.refl (l : Loader) : Still l l := ⟨rfl, fun _ => rfl, fun _ => rfl, fun _ => rfl⟩

theorem Kept.still (kept : Kept l l') : Still l l' :=
  ⟨kept.raised.steady.registry, kept.status, kept.raised.locator, kept.raised.dependencies⟩

end Loader

/-! What is left to do as long as no module moves on. -/

section

variable (setup : Setup) (needs : Locator → Bool) (toll : Locator → Nat)

def Receiver.cost : Receiver → Nat
  | .host callback => 2 + 4 * callback.body.length
  | .discard _ => 0

/-- The work of compiling a number of modules for a receiver. -/
def Receiver.gathering (modules : Nat) (receiver : Receiver) : Nat := 1 + 3 * modules + receiver.cost

def Continuation.cost : Continuation → Nat
  | .arrive .. => 1
  | .request ids receiver => 8 + tolls needs toll (setup.wanted ids) + receiver.gathering ids.length
  | .preload locators receiver => 3 + receiver.gathering locators.length
  | .gather locators receiver => 1 + receiver.gathering locators.length
  | .call _ => 0

def Frame.cost : Frame → Nat
  | .load locators next => 3 + tolls needs toll locators + next.cost setup needs toll
  | .entries locators _ => 1 + (locators.map fun d => 1 + toll d).sum
  | .settled locator _ => toll locator
  | .resume next => next.cost setup needs toll
  | .request _ ids receiver => 7 + tolls needs toll (setup.wanted ids) + receiver.gathering ids.length
  | .preload next => 1 + next.cost setup needs toll
  | .gather locators _ receiver => receiver.gathering locators.length
  | .collect locators _ receiver => 1 + receiver.gathering locators.length
  | .deliver receiver _ => receiver.cost
  | f => f.length

/-- The work of all frames and of all loads in progress. -/
def effort (frames : List Frame) (l : Loader) : Nat :=
  (frames.map (Frame.cost setup needs toll)).sum + l.due (Continuation.cost setup needs toll)

end

section

variable {setup : Setup} {needs : Locator → Bool} {toll : Locator → Nat} {l l' : Loader}

theorem effort_cons (frame : Frame) (rest : List Frame) :
    effort setup needs toll (frame :: rest) l =
      frame.cost setup needs toll + effort setup needs toll rest l := by
  rw [effort, effort, List.map_cons, List.sum_cons]
  omega

theorem effort_append (frames rest : List Frame) :
    effort setup needs toll (frames ++ rest) l =
      (frames.map (Frame.cost setup needs toll)).sum + effort setup needs toll rest l := by
  rw [effort, effort, List.map_append, List.sum_append]
  omega

theorem Frame.cost_of_quiet {f : Frame} (isQuiet : f.isQuiet = true) :
    f.cost setup needs toll = f.length := by
  cases f <;> first | rfl | cases isQuiet

end

/-! Every step comes closer to the end. -/

/-- A module has moved on, or a queued retrieval has been taken. -/
inductive World.Nearer (horizon : List Locator) (w w' : World) : Prop where
  | advanced (less : w'.loader.ahead horizon < w.loader.ahead horizon)
  | taken (still : Still w.loader w'.loader) (shorter : w'.fetcher.queue.length < w.fetcher.queue.length)

/-- The world has come nearer to its end, or less is left to do. -/
inductive Closer (setup : Setup) (horizon : List Locator) (toll : Locator → Nat) (m m' : Machine) :
    Prop where
  | nearer (nearer : m.world.Nearer horizon m'.world)
  | worked (still : Still m.world.loader m'.world.loader)
      (queue : m'.world.fetcher.queue = m.world.fetcher.queue)
      (less : effort setup m.world.loader.needsLoading toll m'.stack m'.world.loader <
        effort setup m.world.loader.needsLoading toll m.stack m.world.loader)

section

variable {setup : Setup} {horizon : List Locator} {toll : Locator → Nat} {w w' : World} {frame : Frame}
  {frames rest : List Frame}

theorem Closer.of_less (still : Still w.loader w'.loader) (queue : w'.fetcher.queue = w.fetcher.queue)
    (less : (frames.map (Frame.cost setup w.loader.needsLoading toll)).sum +
        w'.loader.due (Continuation.cost setup w.loader.needsLoading toll) <
      frame.cost setup w.loader.needsLoading toll +
        w.loader.due (Continuation.cost setup w.loader.needsLoading toll)) :
    Closer setup horizon toll ⟨w, frame :: rest⟩ ⟨w', frames ++ rest⟩ := by
  refine .worked still queue ?_
  dsimp only
  rw [effort_cons, effort_append, effort, effort]
  omega

/-- What has no part in loads takes less and less to do. -/
theorem Closer.of_aside (still : Still w.loader w'.loader) (queue : w'.fetcher.queue = w.fetcher.queue)
    (barriers : w'.loader.barriers = w.loader.barriers) (isQuiet : frame.isQuiet = true)
    (aside : ∀ f ∈ frames, f.Aside frame w'.loader)
    (shorter : (frames.map Frame.length).sum < frame.length) :
    Closer setup horizon toll ⟨w, frame :: rest⟩ ⟨w', frames ++ rest⟩ := by
  have cost : frames.map (Frame.cost setup w.loader.needsLoading toll) = frames.map Frame.length :=
    List.map_congr_left fun f member => Frame.cost_of_quiet (aside f member).isQuiet
  refine .of_less still queue ?_
  rw [Loader.due_same _ barriers, cost, Frame.cost_of_quiet isQuiet]
  omega

/-- An entry that arrives brings its record on, or leaves everything as it was. -/
theorem Closer.of_arrival {b : BarrierId} {loaded : Option RecordId}
    (arrival : Arrival w b loaded w' frames) (tabular : Tabular setup w.loader)
    (within : ∀ d, w.loader.Registered d → d ∈ horizon) (inside : b.index < w.loader.barriers.size)
    (paid : 0 < frame.cost setup w.loader.needsLoading toll) :
    Closer setup horizon toll ⟨w, frame :: rest⟩ ⟨w', frames ++ rest⟩ := by
  obtain still | less := arrival.raised.still_or_ahead tabular within
  · refine .of_less still (by rw [arrival.fetcher]) ?_
    have due := arrival.counted.due (Continuation.cost setup w.loader.needsLoading toll) inside
    obtain ⟨none | next, rfl, same⟩ := due <;> exact same ▸ Nat.lt_add_of_pos_left paid
  · exact .nearer (.advanced less)

theorem Relay.cheaper {needs : Locator → Bool} (relay : Relay setup w frame frames) :
    (frames.map (Frame.cost setup needs toll)).sum < frame.cost setup needs toll := by
  cases relay with
  | requested ids receiver locators all =>
    simp only [List.map_cons, List.map_nil, List.sum_cons, List.sum_nil, Frame.cost, Continuation.cost, all]
    omega
  | _ =>
    simp only [List.map_cons, List.map_nil, List.sum_cons, List.sum_nil, List.length_cons, List.length_nil,
      Frame.cost, Frame.length, Continuation.cost, Receiver.gathering, Receiver.cost]
    omega

/-- A locator that is asked for has moved on, now that it is being retrieved. -/
theorem Closer.of_requested {locator : Locator} {b : BarrierId} {anonymous : Option Definition}
    (absent : w.loader.entry? locator = none)
    (loader : w'.loader = { w.loader.requested locator b with anonymous }) (member : locator ∈ horizon) :
    Closer setup horizon toll ⟨w, frame :: rest⟩ ⟨w', frames ++ rest⟩ := by
  have advances : Advances w.loader w'.loader := .of_requested absent loader
  have record : w'.loader.record ⟨w.loader.records.size⟩ = { locator, status := .fetching } := by
    rw [loader]
    exact (w.loader.record_requested locator b _).trans (if_pos rfl)
  have held : w'.loader.entry? locator = some ⟨w.loader.records.size⟩ := by
    rw [loader]
    exact (w.loader.entry_requested locator locator b).trans (if_pos rfl)
  refine .nearer (.advanced (advances.ahead_lt member ?_))
  simp only [Loader.stage, absent, held, Loader.status, record]
  decide

/-- A retrieval that is over has brought its module on. -/
theorem Closer.of_retrieved {token : FetchToken} {r : RecordId} (tabular : Tabular setup w.loader)
    (held : w.loader.entry? token.locator = some r) (fetching : w.loader.status r = .fetching)
    (retrieved : Retrieved setup w.loader w'.loader token r) (member : token.locator ∈ horizon) :
    Closer setup horizon toll ⟨w, frame :: rest⟩ ⟨w', frames ++ rest⟩ := by
  have known : w.loader.status r ≠ .unknown := by
    rw [fetching]
    exact Status.noConfusion
  refine .nearer (.advanced ((retrieved.advances fetching).ahead_lt_of_status tabular known ?_ ?_))
  · rw [tabular.own held]
    exact member
  · have ended := retrieved.fetched
    rw [fetching]
    intro same
    rw [same] at ended
    exact absurd ended (by decide)

end

theorem QuietMove.closer {setup : Setup} {horizon : List Locator} {toll : Locator → Nat} {w w' : World}
    {frame : Frame} {frames rest : List Frame} (move : QuietMove setup w frame w' frames)
    (tabular : Tabular setup w.loader) (isQuiet : frame.isQuiet = true) (idle : frame.isIdle = true)
    (barriers : w'.loader.barriers = w.loader.barriers)
    (within : ∀ d, w.loader.Registered d → d ∈ horizon) :
    Closer setup horizon toll ⟨w, frame :: rest⟩ ⟨w', frames ++ rest⟩ := by
  cases move with
  | still kept fetcher aside shorter =>
    exact .of_aside kept.still (by rw [fetcher]) barriers isQuiet aside shorter
  | compiling r same saved below raised only =>
    have known := Status.ne_unknown_of_le (a := .saved) (by decide) saved
    have member := within _ ⟨r, tabular.entered known⟩
    refine .nearer (.advanced (raised.steady.advances.ahead_lt_of_status tabular known member ?_))
    rw [only, if_pos rfl]
    intro already
    rw [← already] at below
    exact absurd below (by decide)
  | compiled r same raised only fetcher aside shorter =>
    obtain still | less := raised.still_or_ahead tabular within
    · exact .of_aside still (by rw [fetcher]) barriers isQuiet aside shorter
    · exact .nearer (.advanced less)
  | asked site ids tag body later same =>
    rw [same] at idle
    cases idle
  | taken token anonymous queued awaited loader queue =>
    refine .nearer (.taken ?_ ?_)
    · dsimp only
      rw [loader]
      exact ⟨rfl, fun _ => rfl, fun _ => rfl, fun _ => rfl⟩
    · dsimp only
      rw [queue, List.length_erase_of_mem queued]
      have some := List.length_pos_of_mem queued
      omega

/-- The work of each frame comes closer to the end. -/
theorem Work.closer {setup : Setup} {horizon : List Locator} {toll : Locator → Nat}
    {past : List Machine} {w w' : World} {frame : Frame} {frames rest : List Frame} {o : Occurrence}
    (work : Work setup w frame w' frames) (session : Session setup past ⟨w, frame :: rest⟩)
    (effect : Effect w frame o w' frames) (idle : frame.isIdle = true)
    (within : ∀ d, w'.loader.Registered d → d ∈ horizon) (paid : Toll w.loader toll) :
    Closer setup horizon toll ⟨w, frame :: rest⟩ ⟨w', frames ++ rest⟩ := by
  have tabular := session.plain.tabular
  have earlier (d : Locator) (registered : w.loader.Registered d) : d ∈ horizon :=
    within d (work.advances.registered registered)
  have still {b : BarrierId} (goals : Goal.barrier b ∈ frame.goals) :
      b.index < w.loader.barriers.size := by
    refine session.linked.inside (held_pos (.inl ?_))
    exact List.mem_flatMap.mpr ⟨frame, List.mem_cons_self .., goals⟩
  have settling (locator : Locator) (b : BarrierId) :
      0 < (Frame.settled locator b).cost setup w.loader.needsLoading toll := by
    rw [Frame.cost, paid]
    omega
  cases work with
  | quiet isQuiet move =>
    exact move.closer tabular isQuiet idle (effect.barriers_of_goals (frame.of_quiet isQuiet).2) earlier
  | relayed relay loader fetcher =>
    refine .of_less (loader ▸ .refl _) (by rw [fetcher]) ?_
    rw [loader]
    exact Nat.add_lt_add_right relay.cheaper _
  | skipped locators next =>
    refine .of_less (.refl _) rfl ?_
    simp only [List.map_cons, List.map_nil, List.sum_cons, List.sum_nil, Frame.cost]
    omega
  | opened locators next loader fetcher =>
    have barriers : w'.loader.barriers = w.loader.barriers.push
        ⟨(locators.filter w.loader.needsLoading).length, some next⟩ := congrArg Loader.barriers loader
    have more : w'.loader.due (Continuation.cost setup w.loader.needsLoading toll) =
        w.loader.due (Continuation.cost setup w.loader.needsLoading toll) +
          next.cost setup w.loader.needsLoading toll := Loader.due_opened _ _ barriers
    refine .of_less ?_ (by rw [fetcher]) ?_
    · rw [loader]
      exact ⟨rfl, fun _ => rfl, fun _ => rfl, fun _ => rfl⟩
    · simp only [List.map_cons, List.map_nil, List.sum_cons, List.sum_nil, Frame.cost, tolls, more]
      omega
  | ended locator later b landed =>
    refine .of_less (.refl _) rfl ?_
    simp only [List.map_cons, List.map_nil, List.sum_cons, List.sum_nil, Frame.cost]
    omega
  | joined locator later b waiters flying loader fetcher =>
    have due : w'.loader.due (Continuation.cost setup w.loader.needsLoading toll) =
        w.loader.due (Continuation.cost setup w.loader.needsLoading toll) := by
      rw [loader]
      rfl
    refine .of_less ?_ (by rw [fetcher]) ?_
    · rw [loader]
      exact ⟨rfl, fun _ => rfl, fun _ => rfl, fun _ => rfl⟩
    · simp only [List.map_cons, List.map_nil, List.sum_cons, List.sum_nil, Frame.cost, due]
      omega
  | asked locator later b absent anonymous loader =>
    refine .of_requested absent loader (within _ ⟨⟨w.loader.records.size⟩, ?_⟩)
    rw [loader]
    exact (w.loader.entry_requested locator locator b).trans (if_pos rfl)
  | missing locator b r held fetched arrival =>
    exact .of_arrival arrival tabular earlier (still (List.mem_cons_self ..)) (settling locator b)
  | ready locator b r held saved bare arrival =>
    exact .of_arrival arrival tabular earlier (still (List.mem_cons_self ..)) (settling locator b)
  | waits locator b r held saved kept fetcher barriers =>
    have due := Loader.due_same (Continuation.cost setup w.loader.needsLoading toll) barriers
    refine .of_less kept.still (by rw [fetcher]) ?_
    have price := paid locator
    rw [Loader.onward_of_saved held saved] at price
    simp only [List.map_cons, List.map_nil, List.sum_cons, List.sum_nil, Frame.cost, Continuation.cost,
      tolls, due]
    omega
  | arrived b r saved arrival =>
    exact .of_arrival arrival tabular earlier (still (List.mem_cons_self ..)) (Nat.lt_succ_self 0)
  | finished token r waiters held fetching resource flying waiting landed retrieved fetcher =>
    exact .of_retrieved tabular held fetching retrieved (earlier _ ⟨r, held⟩)

end ModuleLoader
