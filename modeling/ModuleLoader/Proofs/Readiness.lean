import ModuleLoader.Proofs.Effects.Readying
import ModuleLoader.Proofs.Listed.Registry
import ModuleLoader.Proofs.Sharing
import ModuleLoader.Proofs.Waiting

/-! When a module is ready. Whoever waits for a module's dependencies waits for all of them but those that
have been reported to close a circle, and so each of those who may tell the module that it is ready has a
reason for every dependency: it is done, or the report has been made. -/
namespace ModuleLoader

open Loader (Sound Landed Grows Pools Mild)

/-- Actions by which the host clears what has been reported, or interferes otherwise. -/
def Action.disturbs : Action → Bool
  | .clearDiagnostics => true
  | action => action.interferes

theorem Action.interferes_of_quiet {action : Action} (quiet : action.disturbs = false) :
    action.interferes = false := by
  cases action <;> first | rfl | exact quiet

/-! A circle is reported from the module on. -/

namespace Loader

variable {l : Loader}

/-- A path is found on the module that its dependency stands for. -/
theorem waitingPath?_from {fuel : Nat} {path found : List Locator} {d : Locator}
    (walk : l.waitingPath? fuel path d = some found) :
    ∃ r more, l.entry? d = some r ∧ found = more ++ (l.record r).locator :: path := by
  induction fuel generalizing path d with
  | zero => cases walk
  | succ fuel ih =>
    rw [waitingPath?] at walk
    obtain ⟨r, held, walk⟩ := Option.bind_eq_some_iff.mp walk
    dsimp only at walk
    split at walk
    · split at walk
      · cases walk
        exact ⟨r, [], held, rfl⟩
      · obtain ⟨e, -, further⟩ := List.exists_of_findSome?_eq_some walk
        obtain ⟨x, more, -, same⟩ := ih further
        exact ⟨r, more ++ [(l.record x).locator], held, by rw [same, List.append_assoc]; rfl⟩
    · cases walk

/-- The circle that a dependency closes goes from the module to the dependency first. -/
theorem circle?_from {module d : Locator} {chain : List Locator} (circle : l.circle? module d = some chain) :
    ∃ r rest, l.entry? d = some r ∧ chain = module :: (l.record r).locator :: rest := by
  obtain ⟨found, walk, rfl⟩ := Option.map_eq_some_iff.mp circle
  obtain ⟨r, more, held, rfl⟩ := waitingPath?_from walk
  exact ⟨r, (module :: more).reverse, held, by simp⟩

theorem reportAll_held {held : List Diagnostic} (sink : l.sink = .buffer held) (cs : List Condition) :
    ∀ c ∈ cs, c.diagnostic ∈ (l.reportAll cs).sink.held := by
  induction cs generalizing l held with
  | nil => exact List.forall_mem_nil _
  | cons c cs ih =>
    have reported : (l.report c).sink = .buffer (held ++ [c.diagnostic]) := by
      rw [report, emit, sink]
      rfl
    refine List.forall_mem_cons.mpr ⟨?_, ih reported⟩
    have kept := ((l.report c).reportAll_edits cs).mild.sink
    rw [reported] at kept
    exact kept.held (List.mem_append_right _ (List.mem_singleton_self _))

/-- When an entry is read again, each dependency is found to be waited for, or reported. -/
theorem settledEntry_reports {locator : Locator} {r : RecordId} {held : List Diagnostic}
    (entry : l.entry? locator = some r) (saved : .saved ≤ l.status r) (sink : l.sink = .buffer held)
    {d : Locator} (member : d ∈ (l.record r).dependencies) :
    d ∈ (l.pureDependencies r).1 ∨ ∃ x rest, l.entry? d = some x ∧
      (Condition.circularDependency ((l.record r).locator :: (l.record x).locator :: rest)).diagnostic ∈
        (l.settledEntry locator).1.sink.held := by
  cases circle : l.circle? (l.record r).locator d with
  | none => exact .inl (mem_pureDependencies.mpr ⟨member, circle⟩)
  | some chain =>
    obtain ⟨x, rest, there, rfl⟩ := circle?_from circle
    have below : ¬ l.status r < .saved := Nat.not_lt.mpr saved
    refine .inr ⟨x, rest, there, ?_⟩
    simp only [settledEntry, entry, if_neg below]
    refine reportAll_held sink _ _ ?_
    simp only [pureDependencies, List.mem_filterMap, List.mem_map]
    exact ⟨_, ⟨d, member, rfl⟩, by rw [circle]; rfl⟩

end Loader

/-! Who is to tell a module that it is ready. -/

mutual

/-- What is to be told of a module is told at a load. -/
theorem Continuation.goal_of_relies {r : RecordId} :
    ∀ {next : Continuation}, (r, Status.saved) ∈ next.relies → ∃ b, next.goal = .barrier b
  | .arrive b _, _ => ⟨b, rfl⟩
  | .request _ receiver, relies | .preload _ receiver, relies | .gather _ receiver, relies =>
    Receiver.goal_of_relies (show (r, Status.saved) ∈ receiver.relies from relies)
  | .call _, relies => nomatch relies

theorem Receiver.goal_of_relies {r : RecordId} :
    ∀ {receiver : Receiver}, (r, Status.saved) ∈ receiver.relies → ∃ b, receiver.goal = .barrier b
  | .host _, relies => nomatch relies
  | .discard next, relies => Continuation.goal_of_relies (show (r, Status.saved) ∈ next.relies from relies)

end

theorem Frame.goal_of_relies {r : RecordId} {f : Frame} (relies : (r, Status.saved) ∈ f.relies) :
    ∃ b, .barrier b ∈ f.goals := by
  have next {next : Continuation} (relies : (r, Status.saved) ∈ next.relies) :
      ∃ b, Goal.barrier b ∈ [next.goal] := by
    obtain ⟨b, same⟩ := Continuation.goal_of_relies relies
    exact ⟨b, same ▸ List.mem_singleton_self _⟩
  have receiver {receiver : Receiver} (relies : (r, Status.saved) ∈ receiver.relies) :
      ∃ b, Goal.barrier b ∈ [receiver.goal] := by
    obtain ⟨b, same⟩ := Receiver.goal_of_relies relies
    exact ⟨b, same ▸ List.mem_singleton_self _⟩
  have site {site : Site} (relies : (r, Status.saved) ∈ site.relies) : False := by
    obtain ⟨c, -, same⟩ := List.mem_map.mp relies
    cases same
  cases f with
  | load | resume | preload => exact next relies
  | request | gather | collect | deliver => exact receiver relies
  | script | conclude | completeRest => exact (site relies).elim
  | entries | settled | retrieved | leaveFactory => cases relies
  | compile | runPatch | replaceInterface | applyPatches | answerExports | runFactory | finishCompile =>
    cases List.mem_singleton.mp relies

/-- The last arrival at a load hands on what the load was for. -/
theorem World.Counted.resumes {w w' : World} {b : BarrierId} {frames : List Frame} {f : Frame}
    (counted : w.Counted b w' frames) (new : f ∈ frames) :
    ∃ next, f = .resume next ∧ (w.loader.barrier b).onDone = some next ∧
      (w'.loader.barrier b).remaining = 0 := by
  obtain ⟨-, barriers, rfl⟩ | ⟨-, -, rfl⟩ := counted
  · obtain ⟨next, waits, rfl⟩ := Option.map_eq_some_iff.mp (Option.mem_toList.mp new)
    have inside := Loader.inside_of_onDone waits
    refine ⟨next, rfl, waits, ?_⟩
    rw [Loader.barrier_changed inside barriers, if_pos rfl]
  · cases new

section

variable {w : World} {frame f : Frame} {r : RecordId}

/-- Whoever is to tell a module that it is ready takes this over from the frame that it comes from, or
starts with the module's dependencies, or comes from a load that is over. -/
theorem Frame.relies_of_exec (sound : Sound w.loader) (new : f ∈ (frame.exec w).2)
    (relies : (r, Status.saved) ∈ f.relies) :
    ((r, Status.saved) ∈ frame.relies ∧
      ∀ locators next, frame = .load locators next → ∀ d ∈ locators, w.loader.needsLoading d = false) ∨
    (∃ locator b dependencies, frame = .settled locator b ∧
      (w.loader.settledEntry locator).2 = .waits r dependencies ∧ f = .load dependencies (.arrive b r)) ∨
    ∃ b next, f = .resume next ∧ (w.loader.barrier b).onDone = some next ∧
      ((frame.exec w).1.loader.barrier b).remaining = 0 := by
  have quiet (goals : frame.goals = []) (other : frame.token? = none) : False := by
    obtain ⟨b, goal⟩ := Frame.goal_of_relies relies
    exact (frame.effect sound).aside goals other f new b goal
  have taken (same : f.relies = frame.relies) (unloading : ∀ locators next, frame ≠ .load locators next) :
      (r, Status.saved) ∈ frame.relies ∧ ∀ locators next, frame = .load locators next →
        ∀ d ∈ locators, w.loader.needsLoading d = false :=
    ⟨same ▸ relies, fun locators next here => (unloading locators next here).elim⟩
  cases frame with
  | load locators next =>
    simp only [exec, World.load] at new
    split at new
    · rename_i nothing
      obtain rfl := List.mem_singleton.mp new
      refine .inl ⟨relies, ?_⟩
      rintro _ _ ⟨⟩ d member
      have absent := List.filter_eq_nil_iff.mp (List.isEmpty_iff.mp nothing) d member
      exact Bool.not_eq_true _ ▸ absent
    · obtain rfl := List.mem_singleton.mp new
      cases relies
  | settled locator b =>
    have barriers := ((w.loader.settledEntry_edits locator).quiet id).barriers
    simp only [exec, World.settle] at new ⊢
    generalize entered : w.loader.settledEntry locator = entry at *
    obtain ⟨l, entry⟩ := entry
    dsimp only at *
    have arrived (loaded : Option RecordId)
        (new : f ∈ (World.arrive { w with loader := l } b loaded).2) :
        ∃ x next, f = .resume next ∧ (w.loader.barrier x).onDone = some next ∧
          ((World.arrive { w with loader := l } b loaded).1.loader.barrier x).remaining = 0 := by
      obtain ⟨next, same, waits, none⟩ := (World.arrive_counted _ b loaded).1.resumes new
      refine ⟨b, next, same, ?_, none⟩
      rw [Loader.barrier, ← barriers]
      exact waits
    cases entry with
    | missing => exact .inr (.inr (arrived none new))
    | ready x => exact .inr (.inr (arrived (some x) new))
    | waits x dependencies =>
      obtain rfl := List.mem_singleton.mp new
      cases List.mem_singleton.mp relies
      exact .inr (.inl ⟨locator, b, dependencies, rfl, by rw [entered], rfl⟩)
  | resume next =>
    cases next with
    | arrive b x =>
      obtain ⟨next, same, waits, none⟩ := (w.arrive_counted b (some x)).1.resumes new
      exact .inr (.inr ⟨b, next, same, waits, none⟩)
    | call callback =>
      obtain rfl := List.mem_singleton.mp new
      cases relies
    | request | preload | gather =>
      obtain rfl := List.mem_singleton.mp new
      exact .inl (taken rfl fun _ _ => Frame.noConfusion)
  | request referrer ids receiver =>
    obtain rfl := List.mem_singleton.mp new
    exact .inl (taken rfl fun _ _ => Frame.noConfusion)
  | preload next =>
    simp only [exec, World.preload] at new
    split at new <;> obtain rfl := List.mem_singleton.mp new <;>
      exact .inl (taken rfl fun _ _ => Frame.noConfusion)
  | gather locators interfaces receiver =>
    have spread : f.relies = receiver.relies ∨ ∃ x, f = .compile x := by
      cases locators with
      | nil => exact .inl (List.mem_singleton.mp new ▸ rfl)
      | cons locator later =>
        simp only [exec, World.gather] at new
        split at new
        · rcases List.mem_cons.mp new with rfl | new
          · exact .inr ⟨_, rfl⟩
          · exact .inl (List.mem_singleton.mp new ▸ rfl)
        · exact .inl (List.mem_singleton.mp new ▸ rfl)
    obtain same | ⟨x, rfl⟩ := spread
    · exact .inl (taken same fun _ _ => Frame.noConfusion)
    · cases List.mem_singleton.mp relies
  | collect locators interfaces receiver =>
    obtain rfl := List.mem_singleton.mp new
    exact .inl (taken rfl fun _ _ => Frame.noConfusion)
  | deliver receiver interfaces =>
    cases receiver with
    | host callback =>
      obtain rfl := List.mem_singleton.mp new
      cases relies
    | discard next =>
      obtain rfl := List.mem_singleton.mp new
      exact .inl (taken rfl fun _ _ => Frame.noConfusion)
  | entries locators b =>
    cases locators with
    | nil => cases new
    | cons locator later =>
      rcases List.mem_append.mp new with told | last
      · obtain rfl | ⟨token, rfl⟩ := w.enter_frames locator b _ told <;> cases relies
      · obtain rfl := List.mem_singleton.mp last
        cases relies
  | retrieved token =>
    obtain ⟨waiter, -, rfl⟩ := List.mem_map.mp new
    cases relies
  | _ => exact (quiet rfl rfl).elim

end

/-! Only what there are files for is ever saved, and so what is done stays done. -/

/-- What has been saved has a resource that holds something. -/
def Loader.Stocked (holds : PhysicalId → Prop) (l : Loader) : Prop :=
  ∀ r, .saved ≤ l.status r → holds (l.resolver.physicalId (l.record r).locator)

namespace Loader.Stocked

variable {holds : PhysicalId → Prop} {l l' : Loader}

/-- Nothing is saved anew. -/
theorem carried (stocked : Stocked holds l) (resolver : l'.resolver = l.resolver)
    (kept : ∀ r, .saved ≤ l'.status r → .saved ≤ l.status r ∧ (l'.record r).locator = (l.record r).locator) :
    Stocked holds l' := by
  intro r saved
  obtain ⟨before, same⟩ := kept r saved
  rw [resolver, same]
  exact stocked r before

theorem ensure (stocked : Stocked holds l) (locator : Locator) :
    Stocked holds (l.ensure locator .fetching).1 := by
  obtain ⟨r, -, same⟩ | ⟨-, same⟩ := l.ensure_cases locator .fetching
  · rw [same]
    exact stocked
  · rw [same]
    refine stocked.carried rfl fun r saved => ?_
    rw [status, record_made] at saved
    rw [record_made]
    split at saved
    · exact absurd (show Status.saved ≤ .fetching from saved) (by decide)
    · rename_i before
      rw [if_neg before]
      exact ⟨saved, rfl⟩

theorem awaitResource (stocked : Stocked holds l) (waiter : Waiter) :
    Stocked holds (l.awaitResource waiter).1 := by
  unfold Loader.awaitResource
  dsimp only
  split
  · rename_i known _
    obtain same | ⟨-, gives⟩ := l.share_gives waiter.locator known
    · rw [same]
      exact stocked
    · refine stocked.carried ((l.share_edits waiter.locator known).quiet id).resolver fun r saved => ?_
      rw [gives.status] at saved
      exact ⟨saved, gives.own r⟩
  · split <;> exact stocked

end Loader.Stocked

theorem Undisturbed.stocked {w : World} {frame : Frame} {l : Loader} {holds : PhysicalId → Prop}
    (undisturbed : Undisturbed w frame l) (stocked : w.loader.Stocked holds) (pools : Pools holds w.loader)
    (ends : ∀ token, frame = .retrieved token → (w.loader.finishFetch token).1.Stocked holds) :
    l.Stocked holds := by
  cases undisturbed with
  | aside stays =>
    refine stocked.carried stays.resolver fun r saved => ⟨?_, stays.locator r⟩
    obtain same | can := stays.moved r
    · exact same ▸ saved
    · exact pools.saved_of_canCompile can
  | answered waits => exact stocked
  | made locator => exact stocked.ensure locator
  | asked locator b waits => exact (stocked.ensure locator).awaitResource ⟨locator, b⟩
  | finished token => exact ends token rfl
  | ended r compiling =>
    refine stocked.carried rfl fun x saved => ?_
    simp only [Loader.status, Loader.record_setStatus] at saved ⊢
    split at saved
    · rename_i here
      rw [if_pos here]
      exact ⟨here.1 ▸ Status.le_trans (by decide) compiling, rfl⟩
    · rename_i other
      rw [if_neg other]
      exact ⟨saved, rfl⟩
  | applied key => exact stocked

section

variable {host : Action → Prop} {setup : Setup} {past : List Machine} {m : Machine}

theorem stocked_always (unnamed : setup.Unnamed) (answers : setup.policy.Answers)
    (run : Run host (.fresh setup) past m)
    (untouched : ∀ action ∈ acted past, action.interferes = false) :
    m.world.loader.Stocked setup.Holds := by
  refine run.invariant_acting untouched (P := fun _ m => m.world.loader.Stocked setup.Holds) ?_ ?_ ?_
  · rw [Machine.fresh, World.start_bare]
    intro r saved
    cases Nat.not_succ_le_zero _ saved
  · intro past w frame rest run untouched still stocked
    have unregistered := unregistered_of_untouched untouched
    have registrations := unnamed.registrations (files_always run untouched)
    have pools := pools_always unnamed answers run untouched
    have undisturbed := run.deed.undisturbed run.sound
      ((founded_always run).stack frame (List.mem_cons_self ..))
      (unclaimed_always answers run unregistered) still fun p => (registrations p).1
    refine undisturbed.stocked stocked pools ?_
    rintro token rfl
    obtain ⟨r, ending, brought⟩ := ending_always unnamed answers run untouched pools
    have concludes := pools.concludes run.sound (coherent_always run) ending
    intro x saved
    rw [concludes.resolver]
    by_cases own : x = r
    · rw [own, concludes.locator (run.sound.known ending.held), ending.own, ending.home]
      rw [own, concludes.own] at saved
      split at saved
      · exact brought.mpr ‹_›
      · exact absurd saved (by decide)
    · obtain same | ⟨-, told⟩ := concludes.moved own
      · have before : .saved ≤ w.loader.status x := same ▸ saved
        rw [concludes.locator (Status.ne_unknown_of_le (a := .saved) (by decide) before)]
        exact stocked x before
      · rw [told] at saved
        exact absurd saved (by decide)
  · intro past w action _ _ stocked
    exact stocked

end

/-- The modules of the table have no names, each locator is a resource of its own, and the fetcher answers. -/
structure Setup.Separate (setup : Setup) : Prop extends setup.Unnamed where
  identity : ∀ locator, setup.resolver.physicalId locator = .ofLocator locator
  answers : setup.policy.Answers

theorem Setup.draft?_eq_none {setup : Setup} {d : Locator} :
    setup.draft? d = none ↔ ¬ setup.Holds (.ofLocator d) := by
  rw [draft?, Option.map_eq_none_iff, List.find?_eq_none, Holds, List.mem_map]
  simp only [decide_eq_true_eq, not_exists, not_and]

/-- In such a session every record stands for its own locator, and nothing else stands for it. -/
structure Loader.Separates (setup : Setup) (l : Loader) : Prop where
  identity : ∀ locator, l.resolver.physicalId locator = .ofLocator locator
  pools : Pools setup.Holds l
  stocked : l.Stocked setup.Holds

namespace Loader.Separates

variable {setup : Setup} {l l' : Loader} {d : Locator} {r : RecordId}

theorem own (separates : Separates setup l) (held : l.entry? d = some r) : (l.record r).locator = d := by
  have home := separates.pools.home held
  rw [separates.identity, separates.identity] at home
  exact PhysicalId.ofLocator_inj home

theorem entry_of_saved (separates : Separates setup l) (saved : .saved ≤ l.status r) :
    l.entry? (l.record r).locator = some r := by
  obtain ⟨first, -, held⟩ := separates.pools.saved saved
  rw [separates.own held]
  exact held

/-- What a retrieval has brought nothing for has no file. -/
theorem done_of_missing (separates : Separates setup l) (landed : Landed l d)
    (missing : (l.settledEntry d).2 = .missing) : setup.Done l d := by
  obtain ⟨r, held, fetched⟩ := landed
  have below : l.status r < .saved := by
    obtain ⟨below, -⟩ | ⟨-, ⟨-, other⟩ | ⟨-, other⟩⟩ := l.settledEntry_cases held
    · exact below
    · cases missing.symm.trans other
    · cases missing.symm.trans other
  refine ⟨r, held, .inr ⟨?_, Setup.draft?_eq_none.mpr fun holds => ?_⟩⟩
  · revert below fetched
    cases l.status r <;> simp [Status.le_iff, Status.lt_iff, Status.code]
  · rw [← separates.identity] at holds
    obtain ⟨first, done, shared⟩ := separates.pools.landed held fetched
    obtain ⟨-, x, source, -, -, saved⟩ := separates.pools.first done
    cases source.symm.trans (shared holds)
    exact Status.not_le.mpr below (saved holds)

/-- What is done stays done. -/
theorem done (separates : Separates setup l) (separates' : Separates setup l') (grown : Grows l l')
    (fixed : ∀ r, .saved ≤ l.status r → (l'.record r).locator = (l.record r).locator)
    (done : setup.Done l d) : setup.Done l' d := by
  obtain ⟨r, held, ready | ⟨fetched, bare⟩⟩ := done
  · have risen := Status.le_trans ready (grown.rises r)
    have entry := separates'.entry_of_saved (Status.le_trans (by decide) risen)
    rw [fixed r (Status.le_trans (by decide) ready), separates.own held] at entry
    exact ⟨r, entry, .inl risen⟩
  · obtain ⟨x, held', landed⟩ := grown.keeps held
    have landed := landed (fetched ▸ Status.le_refl _)
    refine ⟨x, held', .inr ⟨?_, bare⟩⟩
    have unsaved : ¬ .saved ≤ l'.status x := fun saved => by
      have holds := separates'.stocked x saved
      rw [separates'.own held', separates'.identity] at holds
      exact Setup.draft?_eq_none.mp bare holds
    revert landed unsaved
    cases l'.status x <;> simp [Status.le_iff, Status.code]

end Loader.Separates

/-- There is no reason any more to wait for a module's dependency. -/
def Setup.Vouched (setup : Setup) (l : Loader) (module d : Locator) : Prop :=
  setup.Done l d ∨ ∃ rest, (Condition.circularDependency (module :: d :: rest)).diagnostic ∈ l.sink.held

def Frame.loads : Frame → List Locator
  | .load locators _ => locators
  | _ => []

/-- Whoever is to tell a module that it is ready has a reason for each of its dependencies, or it waits. -/
structure Accounted (setup : Setup) (stack : List Frame) (l : Loader) : Prop where
  frames : ∀ f ∈ stack, ∀ r, (r, Status.saved) ∈ f.relies → ∀ d ∈ (l.record r).dependencies,
    setup.Vouched l (l.record r).locator d ∨ d ∈ f.loads
  loads : ∀ b next, (l.barrier b).onDone = some next → ∀ r, (r, Status.saved) ∈ next.relies →
    ∀ d ∈ (l.record r).dependencies, setup.Vouched l (l.record r).locator d ∨ WaitsAt stack l d b

/-- What a step leaves of the reasons there were. -/
structure Upholds (setup : Setup) (l l' : Loader) : Prop where
  done : ∀ d, setup.Done l d → setup.Done l' d
  sink : l.sink.Gains l'.sink
  fixed : ∀ r, .saved ≤ l.status r → (l'.record r).locator = (l.record r).locator ∧
    (l'.record r).dependencies = (l.record r).dependencies

theorem Upholds.vouched {setup : Setup} {l l' : Loader} (upholds : Upholds setup l l') {module d : Locator}
    (vouched : setup.Vouched l module d) : setup.Vouched l' module d := by
  obtain done | ⟨rest, reported⟩ := vouched
  · exact .inl (upholds.done d done)
  · exact .inr ⟨rest, upholds.sink.held reported⟩

/-- What an entry of a load finds when it is read again is a reason, or it is waited for. -/
theorem Loader.Separates.reported {setup : Setup} {l : Loader} (separates : l.Separates setup)
    {held : List Diagnostic} (sink : l.sink = .buffer held) {locator d : Locator} {r : RecordId}
    (entry : l.entry? locator = some r) (saved : .saved ≤ l.status r)
    (member : d ∈ (l.record r).dependencies) :
    d ∈ (l.pureDependencies r).1 ∨
      ∃ rest, (Condition.circularDependency ((l.record r).locator :: d :: rest)).diagnostic ∈
        (l.settledEntry locator).1.sink.held := by
  obtain pure | ⟨x, rest, there, reported⟩ := settledEntry_reports entry saved sink member
  · exact .inl pure
  · rw [separates.own there] at reported
    exact .inr ⟨rest, reported⟩

/-- A module that has nothing to wait for has had all its dependencies reported. -/
theorem Loader.Separates.settled_reported {setup : Setup} {w : World} (separates : w.loader.Separates setup)
    {held : List Diagnostic} (sink : w.loader.sink = .buffer held) {locator d : Locator} {b : BarrierId}
    {r : RecordId} (readied : (Frame.settled locator b).readies? w = some r)
    (member : d ∈ (w.loader.record r).dependencies) :
    ∃ rest, (Condition.circularDependency ((w.loader.record r).locator :: d :: rest)).diagnostic ∈
      ((Frame.settled locator b).exec w).1.loader.sink.held := by
  cases entry : w.loader.entry? locator with
  | none => simp [Frame.readies?, settledEntry, entry] at readied
  | some x =>
    obtain ⟨-, same⟩ | ⟨saved, ⟨pure, same⟩ | ⟨-, same⟩⟩ := w.loader.settledEntry_cases entry
    · simp [Frame.readies?, same] at readied
    · simp only [Frame.readies?, same] at readied
      obtain rfl := Option.some.inj readied
      obtain listed | ⟨rest, reported⟩ := separates.reported sink entry saved member
      · rw [pure] at listed
        cases listed
      · simp only [Frame.exec, World.settle, same]
        exact ⟨rest, ((w.loader.settledEntry locator).1.arrive_mild b (some x)).1.held reported⟩
    · simp [Frame.readies?, same] at readied

namespace Accounted

variable {setup : Setup} {w : World} {frame : Frame} {rest : List Frame} {d : Locator}

/-- Whoever waits goes on waiting until there is a reason. -/
theorem waited (accounted : Accounted setup (frame :: rest) w.loader) (sound : Sound w.loader)
    (bears : w.loader.Bears frame.relies) (told : Told (frame :: rest) w.loader)
    (separates : w.loader.Separates setup) (separates' : (frame.exec w).1.loader.Separates setup)
    (upholds : Upholds setup w.loader (frame.exec w).1.loader) {b : BarrierId} {next : Continuation}
    {r : RecordId} (waits : (w.loader.barrier b).onDone = some next) (relies : (r, Status.saved) ∈ next.relies)
    (member : d ∈ (w.loader.record r).dependencies) :
    setup.Vouched (frame.exec w).1.loader (w.loader.record r).locator d ∨
      WaitsAt ((frame.exec w).2 ++ rest) (frame.exec w).1.loader d b := by
  obtain vouched | waiting := accounted.loads b next waits r relies d member
  · exact .inl (upholds.vouched vouched)
  · obtain still | ⟨rfl, missing⟩ | ⟨x, known, own, ready⟩ :=
      waiting.next sound bears (fun x held => separates.own held)
    · exact .inr still
    · have landed := told.landed d b (List.mem_cons_self ..)
      exact .inl (.inl (upholds.done d (separates.done_of_missing landed missing)))
    · have same := ((bears.turn sound).locator bears known).trans own
      refine .inl (.inl ⟨x, ?_, .inl ready⟩)
      exact same ▸ separates'.entry_of_saved (Status.le_trans (by decide) ready)

theorem step (accounted : Accounted setup (frame :: rest) w.loader) (sound : Sound w.loader)
    (bears : ∀ f ∈ frame :: rest, w.loader.Bears f.relies) (founded : w.Founded)
    (told : Told (frame :: rest) w.loader) {held : List Diagnostic} (sink : w.loader.sink = .buffer held)
    (separates : w.loader.Separates setup) (separates' : (frame.exec w).1.loader.Separates setup)
    (upholds : Upholds setup w.loader (frame.exec w).1.loader) {os : List Occurrence}
    (linked : Linked os ((frame.exec w).2 ++ rest) (frame.exec w).1) :
    Accounted setup ((frame.exec w).2 ++ rest) (frame.exec w).1.loader := by
  -- What frames that are already there rely on.
  have before {f : Frame} (member : f ∈ frame :: rest) {r : RecordId} (relies : (r, Status.saved) ∈ f.relies)
      {d : Locator} (needed : d ∈ ((frame.exec w).1.loader.record r).dependencies) :
      setup.Vouched (frame.exec w).1.loader ((frame.exec w).1.loader.record r).locator d ∨ d ∈ f.loads := by
    obtain ⟨locator, dependencies⟩ := upholds.fixed r (bears f member _ relies)
    rw [dependencies] at needed
    rw [locator]
    exact (accounted.frames f member r relies d needed).imp upholds.vouched id
  have waiting {b : BarrierId} {next : Continuation} (waits : (w.loader.barrier b).onDone = some next)
      {r : RecordId} (relies : (r, Status.saved) ∈ next.relies) {d : Locator}
      (needed : d ∈ ((frame.exec w).1.loader.record r).dependencies) :
      setup.Vouched (frame.exec w).1.loader ((frame.exec w).1.loader.record r).locator d ∨
        WaitsAt ((frame.exec w).2 ++ rest) (frame.exec w).1.loader d b := by
    obtain ⟨locator, dependencies⟩ := upholds.fixed r (founded.waiting waits _ relies)
    rw [dependencies] at needed
    rw [locator]
    exact accounted.waited sound (bears frame (List.mem_cons_self ..)) told separates separates' upholds waits
      relies needed
  have ready {d : Locator} (loaded : w.loader.needsLoading d = false) :
      setup.Done (frame.exec w).1.loader d := upholds.done d (setup.done_of_ready loaded)
  refine ⟨fun f member r relies d needed => ?_, fun b next waits r relies d needed => ?_⟩
  · rcases List.mem_append.mp member with new | below
    swap
    · exact before (List.mem_cons_of_mem _ below) relies needed
    obtain ⟨taken, loaded⟩ | ⟨locator, b, dependencies, rfl, entered, rfl⟩ | ⟨b, next, rfl, waits, none⟩ :=
      Frame.relies_of_exec sound new relies
    · refine .inl ((before (List.mem_cons_self ..) taken needed).elim id fun loads => ?_)
      cases frame with
      | load locators next => exact .inl (ready (loaded locators next rfl d loads))
      | _ => cases loads
    · -- The module's dependencies are loaded, but for those that close a circle.
      cases entry : w.loader.entry? locator with
      | none =>
        rw [Loader.settledEntry, entry] at entered
        cases entered
      | some x =>
        obtain ⟨-, other⟩ | ⟨saved, ⟨-, other⟩ | ⟨-, other⟩⟩ := w.loader.settledEntry_cases entry
        · cases other.symm.trans entered
        · cases other.symm.trans entered
        · cases other.symm.trans entered
          obtain ⟨own, dependencies⟩ := upholds.fixed r saved
          rw [dependencies] at needed
          rw [own]
          obtain pure | reported := separates.reported sink entry saved needed
          · exact .inr pure
          · refine .inl (.inr ?_)
            simp only [Frame.exec, World.settle, entered]
            exact reported
    · -- The load is over, so nobody waits for it.
      refine .inl ((waiting waits relies needed).resolve_right fun still => ?_)
      have balance := linked.balance b
      rw [none] at balance
      exact absurd balance (Nat.ne_of_gt still.held)
  · obtain old | ⟨wanted, rfl⟩ := (frame.effect sound).waiting waits
    · exact waiting old relies needed
    · by_cases old : (w.loader.barrier b).onDone = some next
      · exact waiting old relies needed
      obtain vouched | loaded := before (List.mem_cons_self ..) relies needed
      · exact .inl vouched
      by_cases nothing : (wanted.filter w.loader.needsLoading).isEmpty = true
      · simp only [Frame.exec, World.load, if_pos nothing] at waits
        exact absurd waits old
      simp only [Frame.exec, World.load, if_neg nothing] at waits ⊢
      rw [Loader.barrier_opened (l := w.loader) rfl] at waits
      split at waits
      · rename_i here
        obtain ⟨i⟩ := b
        cases here
        by_cases needs : w.loader.needsLoading d = true
        · exact .inr (.entry _ (List.mem_cons_self ..) (List.mem_filter.mpr ⟨loaded, needs⟩))
        · have done := ready (Bool.not_eq_true _ ▸ needs)
          simp only [Frame.exec, World.load, if_neg nothing] at done
          exact .inl (.inl done)
      · exact absurd waits old

end Accounted

section

variable {host : Action → Prop} {setup : Setup} {past : List Machine} {m : Machine} {w : World}
  {frame : Frame} {rest : List Frame} {held : List Diagnostic}

theorem untouched_of_undisturbed (undisturbed : ∀ action ∈ acted past, action.disturbs = false) :
    ∀ action ∈ acted past, action.interferes = false :=
  fun action member => action.interferes_of_quiet (undisturbed action member)

theorem separates_always (separate : setup.Separate) (run : Run host (.fresh setup) past m)
    (undisturbed : ∀ action ∈ acted past, action.disturbs = false) : m.world.loader.Separates setup := by
  have untouched := untouched_of_undisturbed undisturbed
  refine ⟨fun locator => ?_, pools_always separate.toUnnamed separate.answers run untouched,
    stocked_always separate.toUnnamed separate.answers run untouched⟩
  rw [resolver_always run]
  exact separate.identity locator

/-- A step that is not disturbed clears nothing. -/
theorem not_clearing (undisturbed : ∀ action ∈ acted (⟨w, frame :: rest⟩ :: past), action.disturbs = false)
    (site : Site) (later : Script) : frame ≠ .script site (.clearDiagnostics :: later) := by
  rintro rfl
  cases undisturbed _ (List.mem_cons_self ..)

theorem sink_always (holding : setup.sink = .buffer held) (run : Run host (.fresh setup) past m)
    (undisturbed : ∀ action ∈ acted past, action.disturbs = false) :
    ∃ now, m.world.loader.sink = .buffer now := by
  revert undisturbed
  refine run.invariant (P := fun past m => (∀ action ∈ acted past, action.disturbs = false) →
    ∃ now, m.world.loader.sink = .buffer now) ?_ ?_ ?_
  · intro _
    rw [Machine.fresh, World.start_bare]
    exact ⟨held, holding⟩
  · intro past w frame rest run before undisturbed
    obtain ⟨now, same⟩ := before fun action member => undisturbed action (acted_subset _ _ member)
    obtain ⟨more, kept⟩ := (frame.mild w (not_clearing undisturbed)).1 now same
    exact ⟨now ++ more, kept⟩
  · exact fun past w action _ _ before undisturbed => before undisturbed

theorem upholds_always (separate : setup.Separate) (run : Run host (.fresh setup) past ⟨w, frame :: rest⟩)
    (undisturbed : ∀ action ∈ acted (⟨w, frame :: rest⟩ :: past), action.disturbs = false) :
    Upholds setup w.loader (frame.exec w).1.loader := by
  have earlier : ∀ action ∈ acted past, action.disturbs = false :=
    fun action member => undisturbed action (acted_subset _ _ member)
  have separates := separates_always separate run earlier
  have separates' := separates_always separate (run.work (Machine.step?_cons w frame rest)) undisturbed
  have bears := (founded_always run).stack frame (List.mem_cons_self ..)
  have fixed (r : RecordId) (saved : .saved ≤ w.loader.status r) :=
    run.turn.locator bears (Status.ne_unknown_of_le (a := .saved) (by decide) saved)
  have unremoved (locator : Locator) : frame.occurrence w ≠ .removed locator := fun removes =>
    never_removed (untouched_of_undisturbed undisturbed) locator
      (List.mem_map.mpr ⟨_, List.mem_cons_self .., removes⟩)
  have grown := ((frame.effect run.sound).orderly unremoved run.sound).2
  refine ⟨fun d done => separates.done separates' grown fixed done,
    (frame.mild w (not_clearing undisturbed)).1, fun r saved => ⟨fixed r saved, ?_⟩⟩
  exact (run.turn.later bears r).dependencies saved

theorem accounted_always (separate : setup.Separate) (holding : setup.sink = .buffer held)
    (run : Run host (.fresh setup) past m)
    (undisturbed : ∀ action ∈ acted past, action.disturbs = false) :
    Accounted setup m.stack m.world.loader := by
  revert undisturbed
  refine run.invariant (P := fun past m => (∀ action ∈ acted past, action.disturbs = false) →
    Accounted setup m.stack m.world.loader) ?_ ?_ ?_
  · intro _
    rw [Machine.fresh, World.start_bare]
    exact ⟨List.forall_mem_nil _, fun b next waits => by cases waits⟩
  · intro past w frame rest run accounted undisturbed
    have earlier : ∀ action ∈ acted past, action.disturbs = false :=
      fun action member => undisturbed action (acted_subset _ _ member)
    have next := run.work (Machine.step?_cons w frame rest)
    obtain ⟨now, sink⟩ := sink_always holding run earlier
    exact (accounted earlier).step run.sound (founded_always run).stack (founded_always run).world
      (told_always run (never_removed (untouched_of_undisturbed earlier))) sink
      (separates_always separate run earlier) (separates_always separate next undisturbed)
      (upholds_always separate run undisturbed) (linked_always next)
  · intro past w action run _ before undisturbed
    obtain ⟨-, loads⟩ := before undisturbed
    refine ⟨fun f member r relies => ?_, fun b next waits r relies d needed => ?_⟩
    · obtain rfl := List.mem_singleton.mp member
      cases relies
    · exact (loads b next waits r relies d needed).imp id fun waits => waits.mono (List.forall_mem_nil _)

/-- When a module becomes ready that was only saved, each of its dependencies is done, or the circle has been
reported that waiting for it would have closed. -/
theorem ready_when_vouched (separate : setup.Separate) (holding : setup.sink = .buffer held)
    (run : Run host (.fresh setup) past m)
    (undisturbed : ∀ action ∈ acted (m :: past), action.disturbs = false) {next : Machine}
    (stepped : m.step? = some next) {r : RecordId} (saved : m.world.loader.status r = .saved)
    (ready : next.world.loader.status r = .ready) :
    let l := next.world.loader
    ∀ d ∈ (l.record r).dependencies, setup.Done l d ∨
      ∃ rest, (Condition.circularDependency ((l.record r).locator :: d :: rest)).diagnostic ∈
        l.sink.held := by
  obtain ⟨w, stack⟩ := m
  cases stack with
  | nil => cases stepped
  | cons frame below =>
    cases Option.some.inj ((Machine.step?_cons w frame below).symm.trans stepped)
    have earlier : ∀ action ∈ acted past, action.disturbs = false :=
      fun action member => undisturbed action (acted_subset _ _ member)
    have separates := separates_always separate run earlier
    have upholds := upholds_always separate run undisturbed
    obtain ⟨locator, dependencies⟩ := upholds.fixed r (saved ▸ Status.le_refl _)
    intro l d needed
    rw [dependencies] at needed
    rw [locator]
    obtain before | readied := (frame.mild w (not_clearing undisturbed)).2 r ready
    · cases saved.symm.trans before
    cases frame with
    | settled asked b =>
      obtain ⟨now, sink⟩ := sink_always holding run earlier
      exact .inr (separates.settled_reported sink readied needed)
    | resume next =>
      cases next with
      | arrive b x =>
        obtain rfl := Option.some.inj readied
        have accounted := accounted_always separate holding run earlier
        obtain vouched | loads := accounted.frames _ (List.mem_cons_self ..) x (List.mem_singleton_self _) d needed
        · exact upholds.vouched vouched
        · cases loads
      | _ => cases readied
    | _ => cases readied

end

/-- A session over modules of which two need each other, and one of them a third. -/
def Setup.mutual : Setup where
  config := {}
  resolver := .flat
  policy := .queued
  sink := .buffer []
  files := [
    (⟨"mem:d"⟩, .mk none (some ["x"]) (.function [.get "x" none (some "x")] none)),
    (⟨"mem:x"⟩, .mk none (some ["d", "c"]) (.function [.get "c" none (some "c")] none)),
    (⟨"mem:c"⟩, .mk none (some []) (.value (.int 1)))]

theorem Setup.mutual_separate : Setup.mutual.Separate :=
  ⟨⟨by decide, by decide⟩, fun _ => rfl, .inl rfl⟩

/-- The module `x` does not wait for `d`, which waits for it, and becomes ready when `c` is. -/
theorem Setup.mutual_run : ∃ past m next, Run (fun _ => True) (.fresh .mutual) past m ∧
    m.step? = some next ∧ (acted (m :: past)).any Action.disturbs = false ∧
    m.world.loader.status ⟨1⟩ = .saved ∧ next.world.loader.status ⟨1⟩ = .ready ∧
    (next.world.loader.record ⟨1⟩).dependencies = [⟨"mem:d"⟩, ⟨"mem:c"⟩] := by
  have fresh : Run (fun _ => True) (.fresh .mutual) [] (.fresh .mutual) := .start
  have run := ((fresh.played 40 [.useModules ["d"] "" [], .complete ⟨"mem:d"⟩, .complete ⟨"mem:x"⟩]
    (fun _ _ => trivial) (by decide +kernel)).act (.complete ⟨"mem:c"⟩) trivial).continued 3
  refine ⟨_, _, _, run, Machine.step?_of_work ?_, ?_, ?_, ?_, ?_⟩
  all_goals decide +kernel

theorem ready_when_vouched_mutual :
    ∃ past m next, Run (fun _ => True) (.fresh .mutual) past m ∧ m.step? = some next ∧
      (∀ action ∈ acted (m :: past), action.disturbs = false) ∧
      m.world.loader.status ⟨1⟩ = .saved ∧ next.world.loader.status ⟨1⟩ = .ready ∧
      (next.world.loader.record ⟨1⟩).dependencies = [⟨"mem:d"⟩, ⟨"mem:c"⟩] ∧
      ∀ d ∈ (next.world.loader.record ⟨1⟩).dependencies, Setup.mutual.Done next.world.loader d ∨
        ∃ rest, (Condition.circularDependency
          ((next.world.loader.record ⟨1⟩).locator :: d :: rest)).diagnostic ∈ next.world.loader.sink.held := by
  obtain ⟨past, m, next, run, stepped, undisturbed, saved, ready, dependencies⟩ := Setup.mutual_run
  have undisturbed : ∀ action ∈ acted (m :: past), action.disturbs = false :=
    fun action member => Bool.eq_false_iff.mpr (List.any_eq_false.mp undisturbed action member)
  exact ⟨past, m, next, run, stepped, undisturbed, saved, ready, dependencies,
    ready_when_vouched Setup.mutual_separate rfl run undisturbed stepped saved ready⟩

end ModuleLoader
