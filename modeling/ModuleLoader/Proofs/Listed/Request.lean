import ModuleLoader.Proofs.Listed.Bookkeeping
import ModuleLoader.Proofs.Listed.Completeness

/-! Sessions with a single request. Nothing is asked for that it does not reach, and when it goes on to
compile modules no load is left waiting. -/
namespace ModuleLoader

open Loader (Sound Kept Tabular)

section

variable (setup : Setup) (P : Locator → Prop)

/-- A continuation asks for nothing else. -/
def Continuation.Within : Continuation → Prop
  | .request ids _ => ∀ d ∈ setup.wanted ids, P d
  | _ => True

/-- A frame loads nothing else. -/
def Frame.Within : Frame → Prop
  | .load locators next => (∀ d ∈ locators, P d) ∧ next.Within setup P
  | .entries locators _ => ∀ d ∈ locators, P d
  | .resume next | .preload next => next.Within setup P
  | .request _ ids _ => ∀ d ∈ setup.wanted ids, P d
  | _ => True

end

/-- The one request of a session has been made. -/
structure OneRequest (setup : Setup) (ids : List String) (past : List Machine) (m : Machine) : Prop where
  passed : passedOn (occurrences past) = [0]
  wanted : ∀ number wanted, .passed number wanted ∈ occurrences past → wanted = setup.wanted ids
  idle : ∀ f ∈ m.stack, f.isIdle = true
  resting : ∀ b next, (m.world.loader.barrier b).onDone = some next → next.isIdle = true
  frames : ∀ f ∈ m.stack, f.Within setup (setup.Reachable (setup.wanted ids))
  loads : ∀ b next, (m.world.loader.barrier b).onDone = some next →
    next.Within setup (setup.Reachable (setup.wanted ids))
  registered : ∀ d, m.world.loader.Registered d → setup.Reachable (setup.wanted ids) d

theorem Frame.within_of_quiet {setup : Setup} {P : Locator → Prop} {f : Frame} (isQuiet : f.isQuiet = true) :
    f.Within setup P := by
  cases f <;> trivial

/-- Nothing is passed on where nothing is asked for. -/
theorem Frame.not_passed {w : World} {frame : Frame} (isPlain : frame.isPlain = true)
    (idle : frame.isIdle = true) (number : Nat) (wanted : List Locator) :
    frame.occurrence w ≠ .passed number wanted := by
  cases frame with
  | script site actions =>
    cases actions with
    | nil => exact Occurrence.noConfusion
    | cons action later =>
      simp only [isIdle, List.all_cons, Bool.and_eq_true, Bool.or_eq_true] at idle
      have silent : w.asks? site action = none := by
        revert idle
        cases action <;> simp [World.asks?, Action.isLocal, Action.completes]
      simp only [occurrence, silent]
      split
      · rename_i none
        cases none
      · split <;> exact Occurrence.noConfusion
      · exact Occurrence.noConfusion
  | deliver receiver interfaces => cases receiver <;> exact Occurrence.noConfusion
  | resume next => cases next <;> exact Occurrence.noConfusion
  | entries locators b =>
    cases locators with
    | nil => exact Occurrence.noConfusion
    | cons locator later =>
      simp only [occurrence]
      split <;> exact Occurrence.noConfusion
  | _ => exact Occurrence.noConfusion

namespace Work

variable {setup : Setup} {w w' : World} {frame : Frame} {frames rest : List Frame}

theorem idle (work : Work setup w frame w' frames) (idle : frame.isIdle = true)
    (resting : ∀ b next, (w.loader.barrier b).onDone = some next → next.isIdle = true) :
    ∀ f ∈ frames, f.isIdle = true := by
  intro f member
  have resumed {b : BarrierId} {loaded : Option RecordId} (arrival : Arrival w b loaded w' frames) :
      f.isIdle = true := by
    obtain ⟨next, rfl, waits, -⟩ := arrival.resumes f member
    exact resting b next waits
  cases work with
  | quiet isQuiet move =>
    cases move with
    | still kept fetcher all => exact (all f member).idle idle
    | compiling r same saved under raised only fetcher all => exact (all f member).idle idle
    | compiled r same raised only fetcher all => exact (all f member).idle idle
    | asked site ids tag body later same =>
      rw [same] at idle
      cases idle
    | taken token anonymous queued awaited loader queue all =>
      rcases List.mem_cons.mp member with rfl | later
      · rfl
      · exact (all f later).idle idle
  | relayed relay =>
    cases relay with
    | emptied => cases member
    | called callback interfaces =>
      obtain rfl := List.mem_singleton.mp member
      exact Frame.isIdle_of_local _ idle
    | compiles =>
      simp only [List.mem_cons, List.not_mem_nil, or_false] at member
      rcases member with rfl | rfl
      · rfl
      · exact idle
    | _ =>
      obtain rfl := List.mem_singleton.mp member
      exact idle
  | skipped =>
    obtain rfl := List.mem_singleton.mp member
    exact idle
  | opened | joined | waits =>
    obtain rfl := List.mem_singleton.mp member
    rfl
  | ended =>
    simp only [List.mem_cons, List.not_mem_nil, or_false] at member
    rcases member with rfl | rfl <;> rfl
  | asked locator later b absent anonymous loader files policy requests handed =>
    obtain ⟨rfl, -⟩ | ⟨rfl, -⟩ := handed <;>
      simp only [List.nil_append, List.singleton_append, List.mem_cons, List.not_mem_nil, or_false] at member
    · rw [member]
      rfl
    · rcases member with rfl | rfl <;> rfl
  | missing locator b r held fetched arrival => exact resumed arrival
  | ready locator b r held saved bare arrival => exact resumed arrival
  | arrived b r saved arrival => exact resumed arrival
  | finished token r waiters =>
    obtain ⟨waiter, -, rfl⟩ := List.mem_map.mp member
    rfl

/-- What is loaded comes from what was asked for, along the dependencies of the table. -/
theorem within {P : Locator → Prop} (closed : ∀ {d e}, P d → e ∈ setup.dependencies d → P e)
    (work : Work setup w frame w' frames) (tabular : Tabular setup w.loader)
    (registered : ∀ d, w.loader.Registered d → P d) (here : frame.Within setup P)
    (idle : frame.isIdle = true)
    (loads : ∀ b next, (w.loader.barrier b).onDone = some next → next.Within setup P) :
    ∀ f ∈ frames, f.Within setup P := by
  intro f member
  have resumed {b : BarrierId} {loaded : Option RecordId} (arrival : Arrival w b loaded w' frames) :
      f.Within setup P := by
    obtain ⟨next, rfl, waits, -⟩ := arrival.resumes f member
    exact loads b next waits
  cases work with
  | quiet isQuiet move =>
    cases move with
    | still kept fetcher all => exact f.within_of_quiet (all f member).isQuiet
    | compiling r same saved under raised only fetcher all =>
      exact f.within_of_quiet (all f member).isQuiet
    | compiled r same raised only fetcher all => exact f.within_of_quiet (all f member).isQuiet
    | asked site ids tag body later same =>
      rw [same] at idle
      cases idle
    | taken token anonymous queued awaited loader queue all =>
      rcases List.mem_cons.mp member with rfl | later
      · trivial
      · exact f.within_of_quiet (all f later).isQuiet
  | relayed relay =>
    cases relay with
    | emptied => cases member
    | compiles =>
      simp only [List.mem_cons, List.not_mem_nil, or_false] at member
      rcases member with rfl | rfl <;> trivial
    | requested ids receiver locators =>
      obtain rfl := List.mem_singleton.mp member
      exact ⟨here, trivial⟩
    | begun | preloaded =>
      obtain rfl := List.mem_singleton.mp member
      exact here
    | _ =>
      obtain rfl := List.mem_singleton.mp member
      trivial
  | skipped locators next =>
    obtain rfl := List.mem_singleton.mp member
    exact here.2
  | opened locators next =>
    obtain rfl := List.mem_singleton.mp member
    exact fun d pending => here.1 d (List.mem_of_mem_filter pending)
  | ended locator later =>
    simp only [List.mem_cons, List.not_mem_nil, or_false] at member
    rcases member with rfl | rfl
    · trivial
    · exact fun d wanted => here d (List.mem_cons_of_mem _ wanted)
  | joined locator later =>
    obtain rfl := List.mem_singleton.mp member
    exact fun d wanted => here d (List.mem_cons_of_mem _ wanted)
  | asked locator later b absent anonymous loader files policy requests handed =>
    have below : Frame.Within setup P (.entries later b) :=
      fun d wanted => here d (List.mem_cons_of_mem _ wanted)
    obtain ⟨rfl, -⟩ | ⟨rfl, -⟩ := handed <;>
      simp only [List.nil_append, List.singleton_append, List.mem_cons, List.not_mem_nil, or_false] at member
    · exact member ▸ below
    · rcases member with rfl | rfl
      · trivial
      · exact below
  | missing locator b r held fetched arrival => exact resumed arrival
  | ready locator b r held saved bare arrival => exact resumed arrival
  | waits locator b r held saved =>
    obtain rfl := List.mem_singleton.mp member
    refine ⟨fun d pure => ?_, trivial⟩
    refine closed (registered locator ⟨r, held⟩) ?_
    rw [← tabular.own held, ← (tabular.full saved).2]
    exact (Loader.mem_pureDependencies.mp pure).1
  | arrived b r saved arrival => exact resumed arrival
  | finished token r waiters =>
    obtain ⟨waiter, -, rfl⟩ := List.mem_map.mp member
    trivial

end Work

namespace OneRequest

variable {setup : Setup} {ids : List String} {past : List Machine} {w : World} {frame : Frame}
  {rest : List Frame}

theorem step (one : OneRequest setup ids past ⟨w, frame :: rest⟩)
    (session : Session setup past ⟨w, frame :: rest⟩) (listed : setup.Listed)
    (answers : setup.policy.Answers) :
    OneRequest setup ids (⟨w, frame :: rest⟩ :: past) ⟨(frame.exec w).1, (frame.exec w).2 ++ rest⟩ := by
  have sound := session.tracked.sound
  have isPlain := (session.plain.frames frame (List.mem_cons_self ..)).1
  have idle := one.idle frame (List.mem_cons_self ..)
  have here := one.frames frame (List.mem_cons_self ..)
  have effect := frame.effect sound
  have work := session.work listed answers
  have silent := Frame.not_passed (w := w) isPlain idle
  have occurred : Machine.occurrence ⟨w, frame :: rest⟩ = frame.occurrence w := rfl
  have passed : passedOn (occurrences (⟨w, frame :: rest⟩ :: past)) = passedOn (occurrences past) := by
    apply List.filterMap_cons_none
    rw [occurred]
    cases same : frame.occurrence w with
    | passed number wanted => exact absurd same (silent number wanted)
    | _ => rfl
  refine ⟨passed.trans one.passed, ?_, ?_, ?_, ?_, ?_, ?_⟩
  · intro number wanted member
    rcases List.mem_cons.mp member with now | earlier
    · exact absurd (occurred.symm.trans now.symm) (silent number wanted)
    · exact one.wanted number wanted earlier
  · intro f member
    rcases List.mem_append.mp member with new | below
    · exact work.idle idle one.resting f new
    · exact one.idle f (List.mem_cons_of_mem _ below)
  · intro b next waits
    obtain before | ⟨wanted, rfl⟩ := effect.waiting waits
    · exact one.resting b next before
    · exact idle
  · intro f member
    rcases List.mem_append.mp member with new | below
    · exact work.within .dependency session.plain.tabular one.registered here idle one.loads f new
    · exact one.frames f (List.mem_cons_of_mem _ below)
  · intro b next waits
    obtain before | ⟨wanted, rfl⟩ := effect.waiting waits
    · exact one.loads b next before
    · exact here.2
  · rintro d ⟨r, held⟩
    obtain ⟨registry, -⟩ | ⟨locator, later, b, rfl, absent, registry, -⟩ := work.registered
    · exact one.registered d ⟨r, (congrArg (OrderedMap.get? · d) registry).symm.trans held⟩
    · change OrderedMap.get? (Loader.registry _) d = some r at held
      rw [registry, OrderedMap.get?_insert] at held
      split at held
      · rename_i same
        exact here d (same ▸ List.mem_cons_self ..)
      · exact one.registered d ⟨r, held⟩

theorem acted {action : Action} (one : OneRequest setup ids past ⟨w, []⟩)
    (completes : action.completes = true) :
    OneRequest setup ids (⟨w, []⟩ :: past) ⟨w, [.script .outer [action]]⟩ := by
  refine ⟨one.passed, ?_, ?_, one.resting, ?_, one.loads, one.registered⟩
  · intro number wanted member
    rcases List.mem_cons.mp member with now | earlier
    · cases now
    · exact one.wanted number wanted earlier
  · intro f member
    obtain rfl := List.mem_singleton.mp member
    rw [Frame.isIdle, List.all_cons, completes, Bool.or_true]
    rfl
  · intro f member
    obtain rfl := List.mem_singleton.mp member
    trivial

end OneRequest

theorem Action.plain_of_completes {action : Action} (completes : action.completes = true) :
    action.isPlain = true := by
  cases action <;> first | rfl | cases completes

/-! Sessions in which a request is made, and the host only completes retrievals from then on. -/

section

variable {setup : Setup} {ids : List String} {tag : String} {body : Script} {past : List Machine}
  {m : Machine}

theorem Run.of_asked (isLocal : body.all Action.isLocal = true)
    (run : Run (·.completes = true) (.asked setup ids tag body) past m) :
    Run (·.isPlain = true) (.fresh setup) (past ++ [.fresh setup]) m := by
  have fresh : Run (·.isPlain = true) (.fresh setup) [] (.fresh setup) := .start
  have asked : Run (·.isPlain = true) (.fresh setup) [.fresh setup] (.asked setup ids tag body) :=
    fresh.act (.useModules ids tag body) isLocal
  exact asked.trans (run.mono fun action completes => action.plain_of_completes completes)

/-- The first step passes the request on. -/
theorem OneRequest.first (session : Session setup [.fresh setup] (.asked setup ids tag body))
    (isLocal : body.all Action.isLocal = true) :
    OneRequest setup ids [.asked setup ids tag body, .fresh setup]
      ⟨(Frame.exec (World.start setup) (.script .outer [.useModules ids tag body])).1,
        (Frame.exec (World.start setup) (.script .outer [.useModules ids tag body])).2⟩ := by
  obtain ⟨loader, -, issued, -⟩ := World.start_spec setup
  have passed : (Machine.asked setup ids tag body).occurrence = .passed 0 (setup.wanted ids) := by
    rw [← issued, ← session.plain.tabular.wanted ids]
    rfl
  have past : occurrences [.asked setup ids tag body, .fresh setup] =
      [.passed 0 (setup.wanted ids), .none] := congrArg (· :: [Occurrence.none]) passed
  have frames : (Frame.exec (World.start setup) (.script .outer [.useModules ids tag body])).2 =
      [.preload (.request ids (.host ⟨(World.start setup).issued, Site.outer.place ++ " > " ++ tag, body⟩)),
        .conclude .outer (.reply "use" (.text "returned")), .script .outer []] := rfl
  refine ⟨?_, ?_, ?_, ?_, ?_, ?_, ?_⟩
  · rw [past]
    rfl
  · intro number wanted member
    rw [past] at member
    simp only [List.mem_cons, Occurrence.passed.injEq, List.not_mem_nil, or_false] at member
    obtain ⟨-, here⟩ | none := member
    · exact here
    · cases none
  · intro f member
    simp only [frames, List.mem_cons, List.not_mem_nil, or_false] at member
    rcases member with rfl | rfl | rfl
    · exact isLocal
    · rfl
    · rfl
  · intro b next waits
    change ((World.start setup).loader.barrier b).onDone = some next at waits
    rw [loader] at waits
    cases waits
  · intro f member
    simp only [frames, List.mem_cons, List.not_mem_nil, or_false] at member
    rcases member with rfl | rfl | rfl
    · exact fun d wanted => .wanted wanted
    · trivial
    · trivial
  · intro b next waits
    change ((World.start setup).loader.barrier b).onDone = some next at waits
    rw [loader] at waits
    cases waits
  · rintro d ⟨r, held⟩
    change (World.start setup).loader.entry? d = some r at held
    rw [loader] at held
    cases held

theorem one_request_always (listed : setup.Listed) (answers : setup.policy.Answers)
    (isLocal : body.all Action.isLocal = true)
    (run : Run (·.completes = true) (.asked setup ids tag body) past m) :
    (past = [] ∧ m = .asked setup ids tag body) ∨ OneRequest setup ids (past ++ [.fresh setup]) m := by
  refine run.invariant (P := fun past m => (past = [] ∧ m = .asked setup ids tag body) ∨
    OneRequest setup ids (past ++ [.fresh setup]) m) (.inl ⟨rfl, rfl⟩) ?_ ?_
  · intro past w frame rest run state
    have session := session_always listed answers (run.of_asked isLocal)
    obtain ⟨rfl, start⟩ | one := state
    · cases start
      exact .inr (.first session isLocal)
    · exact .inr (one.step session listed answers)
  · intro past w action run completes state
    obtain ⟨-, start⟩ | one := state
    · cases start
    · exact .inr (one.acted completes)

end

/-! When the request goes on to its callback. -/

section

variable {setup : Setup} {ids : List String} {tag : String} {body : Script} {past : List Machine}
  {m : Machine}

/-- All that has been asked for is done when no load is left waiting. -/
theorem Complete.settled (complete : Complete setup past m.stack m.world) (session : Session setup past m)
    (ended : ∀ b, (m.world.loader.barrier b).onDone = none) (d : Locator)
    (registered : m.world.loader.Registered d) : setup.Done m.world.loader d := by
  obtain ⟨r, held⟩ := registered
  obtain done | ⟨b, waits⟩ := complete.awaits d r held
  · exact done
  · have balance := session.linked.balance b
    rw [(session.linked.live b).mp (ended b)] at balance
    exact absurd balance (Nat.ne_of_gt waits.held)

/-- Modules are compiled when the only request has been waited for, and then none is still saved. -/
theorem Run.not_hurried (listed : setup.Listed) (answers : setup.policy.Answers)
    (isLocal : body.all Action.isLocal = true)
    (run : Run (·.completes = true) (.asked setup ids tag body) past m) (module : Locator) :
    ¬ Hurried (past ++ [.fresh setup]) module := by
  rintro ⟨w, rest, r, moment, rfl, saved⟩
  have passed : ⟨w, .compile r :: rest⟩ ∈ past := by
    rcases List.mem_append.mp moment with here | fresh
    · exact here
    · cases List.mem_singleton.mp fresh
  obtain ⟨later, earlier, rfl, moved⟩ := run.at_moment passed
  have whole := moved.of_asked isLocal
  have session := session_always listed answers whole
  have complete := complete_always listed answers whole
  have booked := booked_always listed answers whole
  obtain ⟨-, start⟩ | one := one_request_always listed answers isLocal moved
  · cases start
  · obtain ⟨locators, interfaces, receiver, collects⟩ := booked.covered.1 rfl
    have isPlain := (session.plain.frames _ (List.mem_cons_of_mem _ collects)).1
    cases receiver with
    | discard next => cases isPlain
    | host callback =>
      have leads : Goal.callback callback.number ∈ (Frame.compile r :: rest).flatMap Frame.goals :=
        List.mem_flatMap.mpr ⟨_, List.mem_cons_of_mem _ collects, List.mem_cons_self ..⟩
      have known : w.loader.status r ≠ .unknown := by
        rw [saved]
        exact Status.noConfusion
      have held := session.plain.tabular.entered known
      obtain ⟨x, there, state⟩ := complete.settled session (session.linked.alone one.passed leads) _ ⟨r, held⟩
      cases held.symm.trans there
      obtain ready | ⟨fetched, -⟩ := state
      · change Status.ready ≤ w.loader.status r at ready
        rw [saved] at ready
        exact absurd ready (by decide)
      · cases saved.symm.trans fetched

/-- When the callback is called, all that the request reaches is done. -/
theorem Run.done_of_called (listed : setup.Listed) (answers : setup.policy.Answers)
    (isLocal : body.all Action.isLocal = true)
    (run : Run (·.completes = true) (.asked setup ids tag body) past m) {number : Nat}
    (called : m.occurrence = .called number) (d : Locator)
    (reachable : setup.Reachable (setup.wanted ids) d) : setup.Done m.world.loader d := by
  have whole := run.of_asked isLocal
  have session := session_always listed answers whole
  have complete := complete_always listed answers whole
  obtain ⟨-, rfl⟩ | one := one_request_always listed answers isLocal run
  · cases called
  · obtain ⟨w, stack⟩ := m
    cases stack with
    | nil => cases called
    | cons frame rest =>
      have isPlain := (session.plain.frames frame (List.mem_cons_self ..)).1
      obtain ⟨callback, interfaces, rfl, rfl⟩ := Frame.of_called isPlain called
      have leads : Goal.callback callback.number ∈
          (Frame.deliver (.host callback) interfaces :: rest).flatMap Frame.goals := List.mem_cons_self ..
      have settled := complete.settled session (session.linked.alone one.passed leads)
      have passed : callback.number ∈ passedOn (occurrences (past ++ [.fresh setup])) := by
        have balance := session.linked.callbacks callback.number
        have reached : 0 < held _ _ _ := held_pos (l := w.loader) (.inl leads)
        apply List.count_pos_iff.mp
        dsimp only at balance
        omega
      obtain ⟨o, there, passes⟩ := List.mem_filterMap.mp passed
      cases o with
      | passed other wanted =>
        cases passes
        have mine := one.wanted _ _ there
        subst mine
        refine complete.closed session (complete.asked session there called) ?_ d reachable
        intro module e _ _ cut
        obtain pruned | hurried := cut
        · exact settled e (complete.pruned module e pruned)
        · exact absurd hurried (run.not_hurried listed answers isLocal module)
      | _ => cases passes

end

end ModuleLoader
