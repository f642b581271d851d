import ModuleLoader.Proofs.Listed.Waiting

/-! What is there when a callback is called. All that its request reaches is done, unless a dependency
was cut that is still under way for somebody else. -/
namespace ModuleLoader

open Loader (Sound Kept Raised Retrieved Tabular)

/-- When a module was to wait for its dependencies, waiting for this one would have closed a circle. -/
def Pruned (past : List Machine) (module d : Locator) : Prop :=
  ∃ w rest b r, ⟨w, .settled module b :: rest⟩ ∈ past ∧ w.loader.entry? module = some r ∧
    .saved ≤ w.loader.status r ∧ d ∈ (w.loader.record r).dependencies ∧
    (w.loader.circle? module d).isSome = true

/-- A module was compiled before its dependencies had been waited for. -/
def Hurried (past : List Machine) (module : Locator) : Prop :=
  ∃ w rest r, ⟨w, .compile r :: rest⟩ ∈ past ∧ (w.loader.record r).locator = module ∧
    w.loader.status r = .saved

/-- A module went on without waiting for a dependency. -/
def Cut (past : List Machine) (module d : Locator) : Prop := Pruned past module d ∨ Hurried past module

theorem Cut.later {past : List Machine} {module d : Locator} (m : Machine) (cut : Cut past module d) :
    Cut (m :: past) module d := by
  obtain ⟨w, rest, b, r, moment, pruned⟩ | ⟨w, rest, r, moment, hurried⟩ := cut
  · exact .inl ⟨w, rest, b, r, List.mem_cons_of_mem _ moment, pruned⟩
  · exact .inr ⟨w, rest, r, List.mem_cons_of_mem _ moment, hurried⟩

/-! What has to be done before work goes on. -/

/-- A receiver's request has asked for a locator. -/
def Receiver.Wants (os : List Occurrence) : Receiver → Locator → Prop
  | .host callback, d => ∃ wanted, .passed callback.number wanted ∈ os ∧ d ∈ wanted
  | .discard _, _ => False

section

variable (setup : Setup) (past : List Machine) (l : Loader)

def Continuation.Needs : Continuation → Locator → Prop
  | .arrive _ r, d => d ∈ (l.record r).dependencies ∧ ¬ Cut past (l.record r).locator d
  | .request ids receiver, d => receiver.Wants (occurrences past) d ∧ d ∉ setup.wanted ids
  | .preload _ receiver, d | .gather _ receiver, d => receiver.Wants (occurrences past) d
  | .call _, _ => False

/-- A load needs what it does not load itself. -/
def Frame.Needs : Frame → Locator → Prop
  | .load locators next, d => next.Needs setup past l d ∧ d ∉ locators
  | .resume next, d | .preload next, d => next.Needs setup past l d
  | .request _ ids receiver, d => receiver.Wants (occurrences past) d ∧ d ∉ setup.wanted ids
  | .gather _ _ receiver, d | .collect _ _ receiver, d | .deliver receiver _, d =>
    receiver.Wants (occurrences past) d
  | _, _ => False

end

/-- What is needed is done, or a load that comes first waits for it. -/
structure Complete (setup : Setup) (past : List Machine) (stack : List Frame) (w : World) : Prop where
  awaits : setup.Awaits stack w.loader
  frames : ∀ f ∈ stack, ∀ d, f.Needs setup past w.loader d → setup.Done w.loader d
  loads : ∀ b next, (w.loader.barrier b).onDone = some next → ∀ d, next.Needs setup past w.loader d →
    setup.Done w.loader d ∨ WaitsAt stack w.loader d b
  ready : ∀ r, .ready ≤ w.loader.status r → ∀ d ∈ (w.loader.record r).dependencies,
    setup.Done w.loader d ∨ Cut past (w.loader.record r).locator d
  pruned : ∀ module d, Pruned past module d → w.loader.Registered d

section

variable {setup : Setup} {past : List Machine} {w w' : World} {frame : Frame}
  {frames rest : List Frame} {d : Locator}

theorem Effect.passed_issued {o : Occurrence} (effect : Effect w frame o w' frames) (number : Nat)
    (wanted : List Locator) (passed : o = .passed number wanted) : number = w.issued := by
  cases effect with
  | passed => exact (Occurrence.passed.inj passed).1.symm
  | _ => cases passed

/-- A callback that is on its way was passed on before. -/
theorem Receiver.Wants.earlier {stack : List Frame} (linked : Linked (occurrences past) stack w)
    {m : Machine} (new : ∀ number wanted, m.occurrence = .passed number wanted → number = w.issued)
    {receiver : Receiver} (reached : 0 < held stack w.loader receiver.goal)
    (wants : receiver.Wants (occurrences (m :: past)) d) : receiver.Wants (occurrences past) d := by
  cases receiver with
  | discard next => exact wants
  | host callback =>
    obtain ⟨wanted, passed, member⟩ := wants
    rcases List.mem_cons.mp passed with now | earlier
    · have here := new _ _ now.symm
      have balance := linked.callbacks callback.number
      have known : callback.number ∈ passedOn (occurrences past) := List.count_pos_iff.mp (by
        rw [Receiver.goal] at reached
        omega)
      have issued := linked.issued _ known
      omega
    · exact ⟨wanted, earlier, member⟩

theorem Continuation.Needs.earlier {stack : List Frame} (linked : Linked (occurrences past) stack w)
    {m : Machine} (new : ∀ number wanted, m.occurrence = .passed number wanted → number = w.issued)
    (advances : w.loader.Advances w'.loader) {next : Continuation} (backed : next.Backed w.loader)
    (reached : 0 < held stack w.loader next.goal)
    (needs : next.Needs setup (m :: past) w'.loader d) : next.Needs setup past w.loader d := by
  cases next with
  | arrive b r =>
    obtain ⟨member, uncut⟩ := needs
    have known := Status.ne_unknown_of_le (a := .saved) (by decide) backed
    rw [advances.dependencies backed] at member
    rw [advances.locator known] at uncut
    exact ⟨member, fun cut => uncut (cut.later m)⟩
  | request ids receiver => exact ⟨needs.1.earlier linked new reached, needs.2⟩
  | preload | gather => exact Receiver.Wants.earlier linked new reached needs
  | call callback => exact needs

theorem Frame.Needs.earlier {stack : List Frame} (linked : Linked (occurrences past) stack w)
    {m : Machine} (new : ∀ number wanted, m.occurrence = .passed number wanted → number = w.issued)
    (advances : w.loader.Advances w'.loader) {f : Frame} (member : f ∈ stack)
    (backed : f.Backed w.loader) (needs : f.Needs setup (m :: past) w'.loader d) :
    f.Needs setup past w.loader d := by
  have reached {g : Goal} (goal : g ∈ f.goals) : 0 < held stack w.loader g :=
    held_pos (.inl (List.mem_flatMap.mpr ⟨f, member, goal⟩))
  have wants {receiver : Receiver} (goal : receiver.goal ∈ f.goals)
      (wants : receiver.Wants (occurrences (m :: past)) d) : receiver.Wants (occurrences past) d :=
    wants.earlier linked new (reached goal)
  cases f with
  | load locators next =>
    exact ⟨needs.1.earlier linked new advances backed (reached (List.mem_cons_self ..)), needs.2⟩
  | resume next | preload next =>
    exact Continuation.Needs.earlier linked new advances backed (reached (List.mem_cons_self ..)) needs
  | request referrer ids receiver => exact ⟨wants (List.mem_cons_self ..) needs.1, needs.2⟩
  | gather | collect | deliver => exact wants (List.mem_cons_self ..) needs
  | _ => exact needs

theorem Frame.not_needs (f : Frame) (isQuiet : f.isQuiet = true) {l : Loader} :
    ¬ f.Needs setup past l d := by
  cases f <;> first | exact id | cases isQuiet

/-- How a record comes to be ready. -/
theorem Work.readied (work : Work setup w frame w' frames) (backed : frame.Backed w.loader) {r : RecordId}
    (ready : .ready ≤ w'.loader.status r) :
    .ready ≤ w.loader.status r ∨ (frame = .compile r ∧ w.loader.status r = .saved) ∨
      (∃ locator b, frame = .settled locator b ∧ w.loader.entry? locator = some r ∧
        .saved ≤ w.loader.status r ∧ (w.loader.pureDependencies r).1 = []) ∨
      ∃ b, frame = .resume (.arrive b r) := by
  have kept (same : w'.loader.status r = w.loader.status r) : .ready ≤ w.loader.status r := same ▸ ready
  cases work with
  | quiet isQuiet move =>
    cases move with
    | still same => exact .inl (kept (same.status r))
    | compiling x here saved below raised only =>
      by_cases this : r = x
      · subst this
        by_cases ended : .ready ≤ w.loader.status r
        · exact .inl ended
        · refine .inr (.inl ⟨here, ?_⟩)
          revert saved ended
          cases w.loader.status r <;> simp [Status.le_iff, Status.code]
      · exact .inl (kept ((only r).trans (if_neg this)))
    | compiled x here raised only =>
      by_cases this : r = x
      · subst this here
        exact .inl (Status.le_trans (b := .compiling) (by decide) backed)
      · exact .inl (kept ((only r).trans (if_neg this)))
    | asked site ids tag body later here loader => exact .inl (kept (by rw [loader]))
    | taken token anonymous queued awaited loader => exact .inl (kept (by rw [loader]; rfl))
  | relayed relay loader => exact .inl (kept (by rw [loader]))
  | skipped | ended => exact .inl ready
  | opened locators next loader => exact .inl (kept (by rw [loader]; rfl))
  | joined locator later b waiters flying loader => exact .inl (kept (by rw [loader]; rfl))
  | asked locator later b absent anonymous loader =>
    refine .inl (kept ?_)
    have record : w'.loader.record r = (w.loader.requested locator b).record r := by
      rw [loader]
      rfl
    rw [w.loader.record_requested] at record
    split at record
    · rw [Loader.status, record] at ready
      exact absurd ready (by decide : ¬ Status.ready ≤ .fetching)
    · rw [Loader.status, record]
      rfl
  | missing locator b x held fetched arrival =>
    exact .inl (kept (arrival.others r (Option.some_ne_none r).symm))
  | ready locator b x held saved bare arrival =>
    by_cases this : x = r
    · subst this
      exact .inr (.inr (.inl ⟨locator, b, rfl, held, saved, bare⟩))
    · exact .inl (kept (arrival.others r fun same => this (Option.some.inj same)))
  | waits locator b x held saved same => exact .inl (kept (same.status r))
  | arrived b x saved arrival =>
    by_cases this : x = r
    · subst this
      exact .inr (.inr (.inr ⟨b, rfl⟩))
    · exact .inl (kept (arrival.others r fun same => this (Option.some.inj same)))
  | finished token x waiters held fetching resource flying waiting landed retrieved =>
    by_cases this : r = x
    · subst this
      obtain ⟨-, status, -⟩ | ⟨-, status, -⟩ := retrieved.outcome <;> rw [status] at ready
      · exact absurd ready (by decide)
      · exact absurd ready (by decide)
    · refine .inl (kept ?_)
      rw [Loader.status, retrieved.others r this, Loader.status]

theorem Loader.pure_or_circle {l : Loader} {r : RecordId} (member : d ∈ (l.record r).dependencies) :
    d ∈ (l.pureDependencies r).1 ∨ (l.circle? (l.record r).locator d).isSome = true := by
  cases circle : l.circle? (l.record r).locator d with
  | some path => exact .inr rfl
  | none => exact .inl (mem_pureDependencies.mpr ⟨member, circle⟩)

/-- Only a locator that stands for a record can close a circle. -/
theorem Loader.registered_of_circle {l : Loader} {module d : Locator}
    (circle : (l.circle? module d).isSome = true) : l.Registered d := by
  cases held : l.entry? d with
  | some r => exact ⟨r, held⟩
  | none =>
    rw [circle?, pathBound, Nat.add_mul, Option.isSome_map] at circle
    simp [waitingPath?, held] at circle

namespace Complete

variable {m : Machine}

/-- What a frame needed is done. -/
theorem carried (complete : Complete setup past m.stack m.world) (session : Session setup past m)
    (effect : Effect m.world frame m.occurrence w' frames)
    (advances : m.world.loader.Advances w'.loader) (tabular : Tabular setup w'.loader) {f : Frame}
    (member : f ∈ m.stack) (needs : f.Needs setup (m :: past) w'.loader d) : setup.Done w'.loader d := by
  have backed := (session.plain.frames f member).2
  have before := needs.earlier session.linked effect.passed_issued advances member backed
  exact (complete.frames f member d before).mono tabular advances

/-- What a load is for is done, or waits at the load. -/
theorem waited (complete : Complete setup past m.stack m.world) (session : Session setup past m)
    (shape : m = ⟨w, frame :: rest⟩) (effect : Effect w frame m.occurrence w' frames)
    (work : Work setup w frame w' frames) (tabular : Tabular setup w'.loader) {b : BarrierId}
    {next : Continuation} (waits : (w.loader.barrier b).onDone = some next)
    (needs : next.Needs setup (m :: past) w'.loader d) :
    setup.Done w'.loader d ∨ WaitsAt (frames ++ rest) w'.loader d b := by
  subst shape
  have backed := (session.plain.loads b next waits).2
  have reached := Pending.held (.barrier b waits : Pending (frame :: rest) _ next)
  have before := needs.earlier session.linked effect.passed_issued work.advances backed reached
  obtain done | still := complete.loads b next waits d before
  · exact .inl (done.mono tabular work.advances)
  · exact still.step session.plain session.tracked.sound work effect

/-- A load that is over has nothing that waits at it. -/
theorem ended {os : List Occurrence} {b : BarrierId} {loaded : Option RecordId} {f : Frame}
    (linked : Linked os (frames ++ rest) w') (arrival : Arrival w b loaded w' frames)
    (member : f ∈ frames) :
    ∃ next, f = .resume next ∧ (w.loader.barrier b).onDone = some next ∧
      ¬ WaitsAt (frames ++ rest) w'.loader d b := by
  obtain ⟨next, rfl, waits, nobody⟩ := arrival.resumes f member
  refine ⟨next, rfl, waits, fun still => ?_⟩
  have balance := linked.balance b
  rw [nobody] at balance
  exact absurd balance (Nat.ne_of_gt still.held)

variable {os : List Occurrence}

theorem step_frames (complete : Complete setup past m.stack m.world) (session : Session setup past m)
    (shape : m = ⟨w, frame :: rest⟩) (effect : Effect w frame m.occurrence w' frames)
    (work : Work setup w frame w' frames) (tabular : Tabular setup w'.loader)
    (linked : Linked os (frames ++ rest) w') :
    ∀ f ∈ frames ++ rest, ∀ d, f.Needs setup (m :: past) w'.loader d → setup.Done w'.loader d := by
  have advances := work.advances
  have carried {f : Frame} (member : f ∈ frame :: rest) {d : Locator}
      (needs : f.Needs setup (m :: past) w'.loader d) : setup.Done w'.loader d := by
    subst shape
    exact complete.carried session effect work.advances tabular member needs
  have own {d : Locator} (needs : frame.Needs setup (m :: past) w'.loader d) :=
    carried (List.mem_cons_self ..) needs
  have arrived {b : BarrierId} {loaded : Option RecordId} (arrival : Arrival w b loaded w' frames) :
      ∀ f ∈ frames, ∀ d, f.Needs setup (m :: past) w'.loader d → setup.Done w'.loader d := by
    intro f member d needs
    obtain ⟨next, rfl, waits, nobody⟩ := ended (d := d) linked arrival member
    exact (complete.waited session shape effect work tabular waits needs).resolve_right nobody
  intro f member d needs
  rcases List.mem_append.mp member with new | below
  swap
  · exact carried (List.mem_cons_of_mem _ below) needs
  cases work with
  | quiet isQuiet move =>
    cases move with
    | still kept fetcher aside => exact absurd needs (f.not_needs (aside f new).isQuiet)
    | compiling r same saved below raised only fetcher aside =>
      exact absurd needs (f.not_needs (aside f new).isQuiet)
    | compiled r same raised only fetcher aside =>
      exact absurd needs (f.not_needs (aside f new).isQuiet)
    | asked site ids tag body later same loader fetcher =>
      simp only [List.mem_cons, List.not_mem_nil, or_false] at new
      rcases new with rfl | rfl | rfl
      · -- The callback is new, so that it is waited for with what it asks for and nothing else.
        subst shape same
        obtain ⟨⟨wanted, passed, asked⟩, unasked⟩ := needs
        rcases List.mem_cons.mp passed with now | earlier
        · have here : Machine.occurrence ⟨w, .script site (.useModules ids tag body :: later) :: rest⟩ =
              .passed w.issued (setup.wanted ids) := by
            rw [← session.plain.tabular.wanted]
            rfl
          cases now.trans here
          exact absurd asked unasked
        · have known := session.linked.issued _ (List.mem_filterMap.mpr ⟨_, earlier, rfl⟩)
          exact absurd known (Nat.lt_irrefl _)
      · exact absurd needs id
      · exact absurd needs id
    | taken token anonymous queued awaited loader queue aside =>
      rcases List.mem_cons.mp new with rfl | later
      · exact absurd needs id
      · exact absurd needs (f.not_needs (aside f later).isQuiet)
  | relayed relay =>
    cases relay with
    | emptied b => cases new
    | called callback interfaces =>
      obtain rfl := List.mem_singleton.mp new
      exact absurd needs id
    | compiles locator locators interfaces receiver r =>
      simp only [List.mem_cons, List.not_mem_nil, or_false] at new
      rcases new with rfl | rfl
      · exact absurd needs id
      · exact own needs
    | _ =>
      obtain rfl := List.mem_singleton.mp new
      exact own needs
  | skipped locators next ready =>
    obtain rfl := List.mem_singleton.mp new
    by_cases wanted : d ∈ locators
    · exact (setup.done_of_ready (ready d wanted)).mono tabular advances
    · exact own ⟨needs, wanted⟩
  | opened | joined =>
    obtain rfl := List.mem_singleton.mp new
    exact absurd needs id
  | ended locator later b landed =>
    simp only [List.mem_cons, List.not_mem_nil, or_false] at new
    rcases new with rfl | rfl <;> exact absurd needs id
  | asked locator later b absent anonymous loader files policy requests handed =>
    obtain ⟨rfl, -⟩ | ⟨rfl, -⟩ := handed <;>
      simp only [List.nil_append, List.singleton_append, List.mem_cons, List.not_mem_nil, or_false] at new
    · rw [new] at needs
      exact absurd needs id
    · rcases new with rfl | rfl <;> exact absurd needs id
  | missing locator b r held fetched arrival => exact arrived arrival f new d needs
  | ready locator b r held saved bare arrival => exact arrived arrival f new d needs
  | arrived b r saved arrival => exact arrived arrival f new d needs
  | waits locator b r held saved kept fetcher =>
    obtain rfl := List.mem_singleton.mp new
    obtain ⟨⟨member, uncut⟩, unloaded⟩ := needs
    subst shape
    have here := session.plain.tabular.own held
    rw [advances.dependencies saved] at member
    rw [advances.locator (session.tracked.sound.known held), here] at uncut
    obtain loaded | circle := Loader.pure_or_circle member
    · exact absurd loaded unloaded
    · rw [here] at circle
      exact absurd (.inl ⟨w, rest, b, r, List.mem_cons_self .., held, saved, member, circle⟩) uncut
  | finished token r waiters =>
    obtain ⟨waiter, -, rfl⟩ := List.mem_map.mp new
    exact absurd needs id

theorem step_loads (complete : Complete setup past m.stack m.world) (session : Session setup past m)
    (shape : m = ⟨w, frame :: rest⟩) (effect : Effect w frame m.occurrence w' frames)
    (work : Work setup w frame w' frames) (tabular : Tabular setup w'.loader) :
    ∀ b next, (w'.loader.barrier b).onDone = some next →
      ∀ d, next.Needs setup (m :: past) w'.loader d →
        setup.Done w'.loader d ∨ WaitsAt (frames ++ rest) w'.loader d b := by
  intro b next waits d needs
  obtain before | ⟨wanted, rfl⟩ := effect.waiting waits
  · exact complete.waited session shape effect work tabular before needs
  · cases work with
    | quiet isQuiet => cases isQuiet
    | relayed relay => cases relay
    | skipped => exact complete.waited session shape effect (.skipped _ _ ‹_›) tabular waits needs
    | opened _ _ loader fetcher =>
      have barriers : w'.loader.barriers = w.loader.barriers.push
          ⟨(wanted.filter w.loader.needsLoading).length, some next⟩ := by
        rw [loader]
        rfl
      rw [Loader.barrier_opened barriers] at waits
      split at waits
      · rename_i new
        obtain ⟨i⟩ := b
        cases new
        have work : Work setup w (.load wanted next) w' _ := .opened _ next loader fetcher
        have advances := work.advances
        by_cases loaded : d ∈ wanted
        · by_cases pending : w.loader.needsLoading d = true
          · exact .inr (.entry _ (List.mem_cons_self ..) (List.mem_filter.mpr ⟨loaded, pending⟩))
          · exact .inl ((setup.done_of_ready (Bool.not_eq_true _ ▸ pending)).mono tabular advances)
        · subst shape
          exact .inl (complete.carried session effect advances tabular (List.mem_cons_self ..)
            ⟨needs, loaded⟩)
      · exact complete.waited session shape effect (.opened _ _ loader fetcher) tabular waits needs

theorem step_ready (complete : Complete setup past m.stack m.world) (session : Session setup past m)
    (shape : m = ⟨w, frame :: rest⟩) (effect : Effect w frame m.occurrence w' frames)
    (work : Work setup w frame w' frames) (tabular : Tabular setup w'.loader) :
    ∀ r, .ready ≤ w'.loader.status r → ∀ d ∈ (w'.loader.record r).dependencies,
      setup.Done w'.loader d ∨ Cut (m :: past) (w'.loader.record r).locator d := by
  subst shape
  intro r ready d member
  have advances := work.advances
  have backed := (session.plain.frames frame (List.mem_cons_self ..)).2
  have readied := work.readied backed ready
  have saved : .saved ≤ w.loader.status r := by
    obtain before | ⟨-, saved⟩ | ⟨-, -, -, -, saved, -⟩ | ⟨b, rfl⟩ := readied
    · exact Status.le_trans (by decide) before
    · rw [saved]
      exact Status.le_refl _
    · exact saved
    · exact backed
  have known := Status.ne_unknown_of_le (a := .saved) (by decide) saved
  have needed := advances.dependencies saved ▸ member
  rw [advances.locator known]
  obtain before | ⟨rfl, saved⟩ | ⟨locator, b, rfl, held, saved, bare⟩ | ⟨b, rfl⟩ := readied
  · obtain done | cut := complete.ready r before d needed
    · exact .inl (done.mono tabular advances)
    · exact .inr (cut.later _)
  · exact .inr (.inr ⟨w, rest, r, List.mem_cons_self .., rfl, saved⟩)
  · obtain loaded | circle := Loader.pure_or_circle needed
    · rw [bare] at loaded
      cases loaded
    · rw [session.plain.tabular.own held] at circle ⊢
      exact .inr (.inl ⟨w, rest, b, r, List.mem_cons_self .., held, saved, needed, circle⟩)
  · by_cases cut : Cut past (w.loader.record r).locator d
    · exact .inr (cut.later _)
    · have done := complete.frames (.resume (.arrive b r)) (List.mem_cons_self ..) d ⟨needed, cut⟩
      exact .inl (done.mono tabular advances)

theorem step_pruned (complete : Complete setup past m.stack m.world)
    (advances : m.world.loader.Advances w'.loader) :
    ∀ module d, Pruned (m :: past) module d → w'.loader.Registered d := by
  intro module d pruned
  apply advances.registered
  obtain ⟨w, rest, b, r, moment, held, saved, member, circle⟩ := pruned
  rcases List.mem_cons.mp moment with rfl | earlier
  · exact Loader.registered_of_circle circle
  · exact complete.pruned module d ⟨w, rest, b, r, earlier, held, saved, member, circle⟩

end Complete

end

theorem Setup.dependencies_of_bare {setup : Setup} {locator : Locator}
    (bare : setup.draft? locator = none) : setup.dependencies locator = [] := by
  rw [Setup.dependencies, bare]
  rfl

namespace Complete

theorem fresh (setup : Setup) : Complete setup [] [] (World.start setup) := by
  obtain ⟨loader, -⟩ := World.start_spec setup
  refine ⟨?_, List.forall_mem_nil _, ?_, ?_, ?_⟩
  · intro d r held
    rw [loader] at held
    cases held
  · intro b next waits
    rw [loader] at waits
    cases waits
  · intro r ready
    rw [loader] at ready
    cases ready
  · rintro module d ⟨w, rest, b, r, moment, -⟩
    cases moment

theorem acted {setup : Setup} {past : List Machine} {w : World} (complete : Complete setup past [] w)
    (session : Session setup past ⟨w, []⟩) (action : Action) :
    Complete setup (⟨w, []⟩ :: past) [.script .outer [action]] w := by
  have more : ∀ f ∈ ([] : List Frame), f ∈ [Frame.script .outer [action]] := List.forall_mem_nil _
  have same := (Kept.refl w.loader).raised.steady.advances
  refine ⟨?_, ?_, ?_, ?_, ?_⟩
  · intro d r held
    obtain done | ⟨b, waits⟩ := complete.awaits d r held
    · exact .inl done
    · exact .inr ⟨b, waits.mono more⟩
  · intro f member d needs
    obtain rfl := List.mem_singleton.mp member
    exact absurd needs id
  · intro b next waits d needs
    have backed := (session.plain.loads b next waits).2
    have reached := Pending.held (.barrier b waits : Pending [] _ next)
    have before := needs.earlier session.linked (fun _ _ passed => by cases passed) same backed reached
    obtain done | waits := complete.loads b next waits d before
    · exact .inl done
    · exact .inr (waits.mono more)
  · intro r ready d member
    obtain done | cut := complete.ready r ready d member
    · exact .inl done
    · exact .inr (cut.later _)
  · exact Complete.step_pruned (m := ⟨w, []⟩) complete same

end Complete

theorem complete_of_hosted {setup : Setup} (listed : setup.Listed) (answers : setup.policy.Answers)
    {past : List Machine} {m : Machine}
    (run : Run (·.isHosted Action.isLocal = true) (.fresh setup) past m) :
    Complete setup past m.stack m.world := by
  refine run.invariant (P := fun past m => Complete setup past m.stack m.world) ?_ ?_ ?_
  · exact .fresh setup
  · intro past w frame rest run complete
    have session := session_of_hosted listed answers run
    have effect := frame.effect run.sound
    have work := session.work listed answers
    have next := session.step listed answers
    refine ⟨?_, ?_, ?_, ?_, ?_⟩
    · exact complete.awaits.step session.plain next.plain.tabular run.sound work effect
    · exact complete.step_frames session rfl effect work next.plain.tabular next.linked
    · exact complete.step_loads session rfl effect work next.plain.tabular
    · exact complete.step_ready session rfl effect work next.plain.tabular
    · exact complete.step_pruned work.advances
  · intro past w action run _ complete
    exact complete.acted (session_of_hosted listed answers run) action

theorem complete_always {setup : Setup} (listed : setup.Listed) (answers : setup.policy.Answers)
    {past : List Machine} {m : Machine} (run : Run (·.isPlain = true) (.fresh setup) past m) :
    Complete setup past m.stack m.world :=
  complete_of_hosted listed answers (run.mono fun _ => Action.hosted_of_plain)

/-- A callback is called when its interfaces are delivered. -/
theorem Frame.of_called {w : World} {frame : Frame} {number : Nat} (isPlain : frame.isPlain = true)
    (called : frame.occurrence w = .called number) :
    ∃ callback interfaces, frame = .deliver (.host callback) interfaces ∧ callback.number = number := by
  obtain ⟨callback, rfl, ⟨interfaces, rfl⟩ | rfl⟩ := Frame.of_calling called
  · exact ⟨callback, interfaces, rfl, rfl⟩
  · cases isPlain

namespace Complete

variable {setup : Setup} {past : List Machine} {m : Machine}

/-- When a callback is called, what its request has asked for is done. -/
theorem asked (complete : Complete setup past m.stack m.world) (session : Session setup past m)
    {number : Nat} {wanted : List Locator} (passed : .passed number wanted ∈ occurrences past)
    (called : m.occurrence = .called number) : ∀ d ∈ wanted, setup.Done m.world.loader d := by
  obtain ⟨w, stack⟩ := m
  cases stack with
  | nil => cases called
  | cons frame rest =>
    have isPlain := (session.plain.frames frame (List.mem_cons_self ..)).1
    obtain ⟨callback, interfaces, rfl, rfl⟩ := Frame.of_called isPlain called
    exact fun d asked => complete.frames _ (List.mem_cons_self ..) d ⟨wanted, passed, asked⟩

/-- What is done goes on along the dependencies that were not cut. -/
theorem closed (complete : Complete setup past m.stack m.world) (session : Session setup past m)
    {wanted : List Locator} (asked : ∀ d ∈ wanted, setup.Done m.world.loader d)
    (cut : ∀ module d, setup.Reachable wanted module → d ∈ setup.dependencies module →
      Cut past module d → setup.Done m.world.loader d) :
    ∀ d, setup.Reachable wanted d → setup.Done m.world.loader d := by
  intro d reachable
  induction reachable with
  | wanted member => exact asked _ member
  | @dependency module d reachable member ih =>
    obtain ⟨r, held, ready | ⟨-, bare⟩⟩ := ih
    · have full := session.plain.tabular.full (Status.le_trans (by decide) ready)
      rw [session.plain.tabular.own held] at full
      obtain done | here := complete.ready r ready d (full.2 ▸ member)
      · exact done
      · rw [session.plain.tabular.own held] at here
        exact cut module d reachable member here
    · rw [Setup.dependencies_of_bare bare] at member
      cases member

end Complete

/-- A session over a table in which `d` and `x` need each other, `x` needs `c`, and `m` needs `d`. -/
def Setup.entangled : Setup where
  config := {}
  resolver := .flat
  policy := .queued
  sink := .silent
  files := [
    (⟨"mem:d"⟩, .mk none (some ["x"]) (.function [.get "x" none (some "x")] none)),
    (⟨"mem:x"⟩, .mk none (some ["d", "c"]) (.function [.get "c" none (some "c")] none)),
    (⟨"mem:c"⟩, .mk none (some []) (.value (.int 1))),
    (⟨"mem:m"⟩, .mk none (some ["d"]) (.function [.get "d" none (some "d")] none))]

theorem Setup.entangled_listed : Setup.entangled.Listed :=
  ⟨by decide, by decide, fun _ => rfl, rfl⟩

end ModuleLoader
