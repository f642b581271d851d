import ModuleLoader.Proofs.Compilation
import ModuleLoader.Proofs.Packages
import ModuleLoader.Proofs.Sharing.Resources

/-! Locators that share a resource share a module. However many of them are asked for, and whenever they
are, the resource is retrieved once, and they come to stand for one record, whose factory is entered once. -/
namespace ModuleLoader

open Loader (Sound Landed Pools)

/-- Actions by which the host removes or patches modules, or adds to what there is to register. -/
def Action.interferes : Action → Bool
  | .remove _ | .modify .. | .addFile .. => true
  | action => action.registers

theorem Action.interferes_of_registers {action : Action} (registers : action.registers = true) :
    action.interferes = true := by
  cases action <;> first | rfl | exact registers

def Draft.isUnnamed : Draft → Bool
  | .mk id _ _ => id.isNone

namespace Setup

/-- Every file holds a module without a name, and no resource has two files. -/
structure Unnamed (setup : Setup) : Prop where
  drafts : ∀ file ∈ setup.files, file.2.isUnnamed = true
  single : (setup.files.map Prod.fst).Nodup

/-- The table has a file for a resource. -/
def Holds (setup : Setup) (p : PhysicalId) : Prop := p ∈ setup.files.map Prod.fst

/-- A resource has a module without a name to register, if and only if the table has a file for it. -/
theorem Unnamed.registrations {setup : Setup} (unnamed : setup.Unnamed) {f : Fetcher}
    (files : f.files = (World.start setup).fetcher.files) (p : PhysicalId) :
    (f.registrations p = [] ∨ ∃ registration, f.registrations p = [registration] ∧ registration.id = none) ∧
      (setup.Holds p ↔ f.registrations p ≠ []) := by
  have reads : ∀ file ∈ setup.files, ∀ w : World, (w.evalDraft .outer file.2).2.id = none := by
    rintro ⟨resource, ⟨id⟩⟩ member w
    exact Option.isNone_iff_eq_none.mp (unnamed.drafts _ member)
  have read := World.start_reads setup (R := fun file entry => entry.1 = file.1 ∧ entry.2.id = none)
    fun file member w => ⟨rfl, reads file member w⟩
  rw [← files] at read
  obtain ⟨none, nothing⟩ | ⟨file, entry, found, ⟨-, id⟩, one⟩ :=
    Fetcher.registrations_read And.left read unnamed.single p
  · refine ⟨.inl nothing, fun holds => ?_, fun some => absurd nothing some⟩
    obtain ⟨file, member, here⟩ := List.mem_map.mp holds
    exact absurd (decide_eq_true here) (List.find?_eq_none.mp none file member)
  · have registrations : f.registrations p = [entry.2] := one
    refine ⟨.inr ⟨entry.2, registrations, id⟩, fun _ => ?_, fun _ => ?_⟩
    · rw [registrations]
      exact List.cons_ne_nil _ _
    · have here := List.find?_some found
      exact List.mem_map.mpr ⟨file, List.mem_of_find?_eq_some found, of_decide_eq_true here⟩

end Setup

/-! What a step does about what shares a resource. -/

namespace World

variable {w : World}

theorem retrieve_files (w : World) (token : FetchToken) :
    (w.retrieve token).1.fetcher.files = w.fetcher.files := by
  unfold retrieve
  dsimp only
  split <;> rfl

theorem enter_files (sound : Sound w.loader) (locator : Locator) (b : BarrierId) :
    (w.enter locator b).1.fetcher.files = w.fetcher.files := by
  obtain ⟨-, -, made | ⟨-, asked⟩⟩ | ⟨token, -, -, -, same⟩ := enter_cases sound locator b
  · rw [made]
  · rw [asked]
  · rw [same]
    exact retrieve_files _ token

/-- A resource is retrieved for a locator that is in the registry. -/
theorem started_registered (sound : Sound w.loader) {locator : Locator} {b : BarrierId}
    {token : FetchToken} (starts : w.startedBy? locator b = some token) :
    ((w.enter locator b).1.loader.entry? token.locator).isSome = true := by
  obtain ⟨none, -⟩ | ⟨_, start, rfl, fetches, same⟩ := enter_cases sound locator b
  · cases none.symm.trans starts
  · cases start.symm.trans starts
    obtain ⟨r, held, fetching⟩ := fetches
    have awaited := Loader.awaitResource_becomes ⟨token.locator, b⟩ held fetching
    have becomes := retrieve_becomes (w := { w with loader := w.asking token.locator b })
      (awaited.sound ((w.loader.ensure_becomes token.locator).sound sound)) token
    rw [same]
    refine becomes.renamed.registered (awaited.renamed.registered ?_)
    exact Option.isSome_iff_exists.mpr ⟨r, held⟩

end World

namespace Deed

variable {w w' : World} {frame : Frame} {frames rest : List Frame}

/-- The table stays, unless the host adds to it. -/
theorem files (deed : Deed w frame w' frames) (sound : Sound w.loader)
    (untouched : ∀ site action later, frame = .script site (action :: later) →
      action.interferes = false) : w'.fetcher.files = w.fetcher.files := by
  cases deed with
  | aside outside stays files => exact files
  | queued site later id body patch waits loader fetcher => rw [fetcher]
  | patched site later id body patch r held compiled loader fetcher => rw [fetcher]
  | removed site later key loader fetcher => rw [fetcher]
  | registered site action later registration registers loader fetcher => rw [fetcher]
  | filed site later resource draft => cases untouched site _ later rfl
  | handed site later index token held loader files => exact files
  | answered token takes loader files => exact files
  | entered locator later b => exact World.enter_files sound locator b
  | finished token => rfl
  | ended r => rfl
  | applied key r => rfl

end Deed

/-- What becomes of the loader in a step while the host keeps out of it and a resource brings at most a module
without a name, which then waits to be named. -/
inductive Undisturbed (w : World) : Frame → Loader → Prop where
  | aside {frame : Frame} {l : Loader} (stays : Loader.Stays w.loader l) : Undisturbed w frame l
  /-- A queued retrieval is answered. -/
  | answered {frame : Frame} (waits : Option Definition) :
      Undisturbed w frame { w.loader with anonymous := waits }
  | made {frame : Frame} (locator : Locator) : Undisturbed w frame (w.loader.ensure locator .fetching).1
  /-- An entry waits for a retrieval, which may have been answered at once. -/
  | asked {frame : Frame} (locator : Locator) (b : BarrierId) (waits : Option Definition)
      (fetches : (w.loader.ensure locator .fetching).1.Fetches locator) :
      Undisturbed w frame { w.asking locator b with anonymous := waits }
  | finished (token : FetchToken) : Undisturbed w (.retrieved token) (w.loader.finishFetch token).1
  | ended {frame : Frame} (r : RecordId) (compiling : .compiling ≤ w.loader.status r) :
      Undisturbed w frame (w.loader.setStatus r .compiled)
  | applied {frame : Frame} (key : Locator) : Undisturbed w frame (w.loader.takePatches key).1

theorem World.enter_undisturbed {w : World} {frame : Frame} (sound : Sound w.loader)
    (answers : w.fetcher.policy.Answers) (empty : w.loader.anonymous = none)
    (unnamed : ∀ p, w.fetcher.registrations p = [] ∨
      ∃ registration, w.fetcher.registrations p = [registration] ∧ registration.id = none)
    (locator : Locator) (b : BarrierId) : Undisturbed w frame (w.enter locator b).1.loader := by
  obtain ⟨-, -, made | ⟨fetches, asked⟩⟩ | ⟨token, -, -, fetches, same⟩ := enter_cases sound locator b
  · rw [made]
    exact .made locator
  · rw [asked]
    exact .asked locator b _ fetches
  · rw [same]
    obtain queued | immediate := answers
    · simp only [retrieve, queued]
      exact .asked locator b _ fetches
    · simp only [retrieve, immediate]
      have parked := Loader.foldl_define_unnamed ((w.asking_mute locator b).anonymous.trans empty)
        (unnamed token.resource)
      change Undisturbed w frame ((w.fetcher.registrations token.resource).foldl Loader.define _)
      rw [parked]
      exact .asked locator b _ fetches

theorem Deed.undisturbed {w w' : World} {frame : Frame} {frames rest : List Frame}
    (deed : Deed w frame w' frames) (sound : Sound w.loader) (bears : w.loader.Bears frame.relies)
    (unclaimed : Unclaimed ⟨w, frame :: rest⟩)
    (untouched : ∀ site action later, frame = .script site (action :: later) → action.interferes = false)
    (unnamed : ∀ p, w.fetcher.registrations p = [] ∨
      ∃ registration, w.fetcher.registrations p = [registration] ∧ registration.id = none) :
    Undisturbed w frame w'.loader := by
  cases deed with
  | aside outside stays => exact .aside stays
  | queued site later | patched site later => cases untouched site _ later rfl
  | removed site later key => cases untouched site _ later rfl
  | registered site action later registration registers =>
    cases (untouched site action later rfl).symm.trans (Action.interferes_of_registers registers)
  | filed site later resource draft => cases untouched site _ later rfl
  | handed site later index token held => cases (unclaimed.no_token index).symm.trans held
  | answered token takes loader files =>
    rw [Loader.evaluate_unnamed (unclaimed.taken_empty takes).1 loader files (unnamed token.resource)]
    exact .answered _
  | entered locator later b =>
    exact World.enter_undisturbed sound unclaimed.answers (unclaimed.frame_empty rfl).1 unnamed locator b
  | finished token => exact .finished token
  | ended r => exact .ended r (bears (r, .compiling) (List.mem_singleton_self _))
  | applied key r => exact .applied key

/-- Locators go on to agree with their resources, if they do so when a retrieval ends. -/
theorem Undisturbed.pools {w : World} {frame : Frame} {l : Loader} {holds : PhysicalId → Prop}
    (undisturbed : Undisturbed w frame l) (pools : Pools holds w.loader) (sound : Sound w.loader)
    (ends : ∀ token, frame = .retrieved token → Pools holds (w.loader.finishFetch token).1) :
    Pools holds l := by
  cases undisturbed with
  | aside stays => exact pools.stays stays
  | answered waits => exact pools.parked waits
  | made locator => exact pools.ensure sound locator
  | asked locator b waits fetches =>
    obtain ⟨r, held, fetching⟩ := fetches
    exact ((pools.ensure sound locator).awaitResource ⟨locator, b⟩ held fetching).parked waits
  | finished token => exact ends token rfl
  | ended r compiling =>
    have saved : .saved ≤ w.loader.status r := Status.le_trans (by decide) compiling
    exact pools.stays (.setStatus _ (Loader.canCompile_of_saved saved) (Status.le_compiled _) (by decide))
  | applied key =>
    refine ⟨fun other => ?_, pools.home, pools.first, pools.landed, pools.saved⟩
    refine (OrderedMap.get?_erase ..).trans ?_
    split
    · rfl
    · exact pools.unpatched other

/-- A resource that is at hand stays so, as what it was retrieved for has landed. -/
theorem Effect.completed {w w' : World} {frame : Frame} {frames : List Frame} {o : Occurrence}
    (effect : Effect w frame o w' frames) (coherent : w.loader.Coherent)
    (flying : ∀ token, frame = .retrieved token →
      (w.loader.ledger.inFlight.get? token.resource).isSome = true)
    {p : PhysicalId} {k : Locator} (done : w.loader.ledger.completed.get? p = some k)
    (landed : Landed w.loader k) : w'.loader.ledger.completed.get? p = some k := by
  have grounded : w.loader.ledger.inFlight.get? p = none := by
    cases under : w.loader.ledger.inFlight.get? p with
    | none => rfl
    | some waiters => cases (coherent.apart under).symm.trans done
  cases effect with
  | calm tame ledger => exact ledger ▸ done
  | removed locator tame loader => exact loader ▸ done
  | passed wanted calm => exact calm.ledger ▸ done
  | called number calm => exact calm.ledger ▸ done
  | opened same nonempty tame ledger => exact ledger ▸ done
  | arrived b tame ledger => exact ledger ▸ done
  | joined waiter waiters tame under ledger =>
    rw [ledger, OrderedMap.get?_erase, if_neg]
    · exact done
    · rintro rfl
      cases grounded.symm.trans under
  | started waiter token tame same free stale ledger =>
    rw [ledger, OrderedMap.get?_erase, if_neg]
    · exact done
    · rintro rfl
      exact stale k done landed
  | finished token tame same ledger =>
    rw [ledger, OrderedMap.get?_insert, if_neg]
    · exact done
    · rintro rfl
      have under := flying token same
      rw [grounded] at under
      cases under

/-! What the past says about what shares a resource. -/

def Occurrence.starts? : Occurrence → Option FetchToken
  | .started token => some token
  | _ => .none

/-- The retrievals of a resource that have been started, latest first. -/
def retrievals (os : List Occurrence) (p : PhysicalId) : List FetchToken :=
  (os.filterMap Occurrence.starts?).filter fun token => token.resource = p

theorem mem_retrievals {os : List Occurrence} {p : PhysicalId} {token : FetchToken} :
    token ∈ retrievals os p ↔ .started token ∈ os ∧ token.resource = p := by
  rw [retrievals, List.mem_filter, decide_eq_true_eq, List.mem_filterMap]
  refine and_congr_left fun _ => ⟨?_, fun started => ⟨_, started, rfl⟩⟩
  rintro ⟨o, member, starts⟩
  cases o with
  | started => exact Option.some.inj starts ▸ member
  | _ => cases starts

theorem retrievals_started {os : List Occurrence} (token : FetchToken) :
    retrievals (.started token :: os) token.resource = token :: retrievals os token.resource := by
  have same : (Occurrence.started token :: os).filterMap Occurrence.starts? =
      token :: os.filterMap Occurrence.starts? := rfl
  rw [retrievals, same, List.filter_cons, if_pos (decide_eq_true rfl), retrievals]

theorem retrievals_other {os : List Occurrence} {o : Occurrence} {p : PhysicalId}
    (other : ∀ token, o = .started token → token.resource ≠ p) : retrievals (o :: os) p = retrievals os p := by
  cases o with
  | started token =>
    have apart : ¬ decide (token.resource = p) = true := mt of_decide_eq_true (other token rfl)
    have same : (Occurrence.started token :: os).filterMap Occurrence.starts? =
        token :: os.filterMap Occurrence.starts? := rfl
    rw [retrievals, same, List.filter_cons, if_neg apart, retrievals]
  | _ => rfl

theorem Unstarted.retrievals {os : List Occurrence} {p : PhysicalId} (unstarted : Unstarted p os) :
    retrievals os p = [] := by
  refine List.eq_nil_iff_forall_not_mem.mpr fun token member => ?_
  obtain ⟨started, here⟩ := mem_retrievals.mp member
  exact unstarted token started here

section

variable {host : Action → Prop} {setup : Setup} {past : List Machine} {m : Machine}

theorem resolver_always (run : Run host (.fresh setup) past m) :
    m.world.loader.resolver = setup.resolver := by
  refine run.invariant (P := fun _ m => m.world.loader.resolver = setup.resolver) ?_ ?_ ?_
  · rw [Machine.fresh, World.start_bare]
    rfl
  · intro past w frame rest run before
    exact (frame.effect run.sound).tame.resolver.trans before
  · intro past w action _ _ before
    exact before

theorem none_interfered (none : (acted past).any Action.interferes = false) :
    ∀ action ∈ acted past, action.interferes = false :=
  fun action member => Bool.eq_false_iff.mpr (List.any_eq_false.mp none action member)

theorem unregistered_of_untouched (untouched : ∀ action ∈ acted past, action.interferes = false) :
    ∀ action ∈ acted past, action.registers = false :=
  fun action member => Bool.eq_false_iff.mpr fun registers =>
    Bool.eq_false_iff.mp (untouched action member) (Action.interferes_of_registers registers)

theorem never_removed (untouched : ∀ action ∈ acted past, action.interferes = false) (locator : Locator) :
    .removed locator ∉ occurrences past := by
  intro removed
  obtain ⟨⟨w, stack⟩, passed, removes⟩ := List.mem_map.mp removed
  cases stack with
  | nil => cases removes
  | cons frame rest =>
    obtain ⟨site, key, later, rfl⟩ := Frame.of_removed removes
    have member : Action.remove key ∈ acted past := List.mem_filterMap.mpr ⟨_, passed, rfl⟩
    cases untouched _ member

theorem files_always (run : Run host (.fresh setup) past m)
    (untouched : ∀ action ∈ acted past, action.interferes = false) :
    m.world.fetcher.files = (World.start setup).fetcher.files := by
  refine run.invariant_acting untouched
    (P := fun _ m => m.world.fetcher.files = (World.start setup).fetcher.files) rfl ?_ ?_
  · intro past w frame rest run _ untouched before
    exact (run.deed.files run.sound untouched).trans before
  · intro past w action _ _ before
    exact before

/-- A retrieval of a locator's resource was started for the locator, which is registered ever since. -/
theorem started_always (run : Run host (.fresh setup) past m)
    (untouched : ∀ action ∈ acted past, action.interferes = false) {token : FetchToken}
    (started : .started token ∈ occurrences past) :
    setup.resolver.physicalId token.locator = token.resource ∧
      (m.world.loader.entry? token.locator).isSome = true := by
  revert started
  refine run.invariant_acting untouched (P := fun past m => .started token ∈ occurrences past →
    setup.resolver.physicalId token.locator = token.resource ∧
      (m.world.loader.entry? token.locator).isSome = true) ?_ ?_ ?_
  · intro started
    cases started
  · intro past w frame rest run untouched still before started
    rcases List.mem_cons.mp started with starts | earlier
    · have starts : frame.occurrence w = .started token := starts.symm
      obtain ⟨locator, later, b, rfl, start⟩ := Frame.of_started starts
      refine ⟨?_, World.started_registered run.sound start⟩
      rw [(single_retrieval run starts).1, ← resolver_always run]
    · obtain ⟨home, registered⟩ := before earlier
      refine ⟨home, (run.deed.renamed run.sound fun locator removes => ?_).registered registered⟩
      obtain ⟨site, key, later, rfl⟩ := Frame.of_removed removes
      cases still site _ later rfl
  · intro past w action run allowed before started
    refine before ((List.mem_cons.mp started).resolve_left ?_)
    exact Occurrence.noConfusion

/-- No resource is retrieved twice. -/
theorem retrievals_le_one (run : Run host (.fresh setup) past m)
    (untouched : ∀ action ∈ acted past, action.interferes = false) (p : PhysicalId) :
    (retrievals (occurrences past) p).length ≤ 1 := by
  refine run.invariant_acting untouched
    (P := fun past _ => (retrievals (occurrences past) p).length ≤ 1) (Nat.zero_le _) ?_ ?_
  · intro past w frame rest run untouched _ before
    change (retrievals (frame.occurrence w :: occurrences past) p).length ≤ 1
    by_cases starts : ∃ token, frame.occurrence w = .started token ∧ token.resource = p
    · obtain ⟨token, starts, rfl⟩ := starts
      have unstarted := (single_retrieval run starts).2.2.2 (never_removed untouched)
      rw [starts, retrievals_started, unstarted.retrievals]
      exact Nat.le_refl _
    · rw [retrievals_other fun token same here => starts ⟨token, same, here⟩]
      exact before
  · intro past w action run allowed before
    change (retrievals (.none :: occurrences past) p).length ≤ 1
    rw [retrievals_other fun token same => by cases same]
    exact before

/-- What can still come to its end was started. -/
theorem started_of_ends (run : Run host (.fresh setup) past m) {token : FetchToken} {below : List Frame}
    (ends : m.stack = .retrieved token :: below) : .started token ∈ occurrences past := by
  have tracked := tracked_always run
  have member : token ∈ m.tokens := by
    rw [Machine.tokens, ends]
    exact List.mem_cons_self ..
  obtain ⟨between, before, split, -⟩ := tracked.latest token (tracked.outstanding.subset member)
  rw [split]
  exact List.mem_append_right _ (List.mem_cons_self ..)

theorem started_of_finished (run : Run host (.fresh setup) past m) {token : FetchToken}
    (finished : .finished token ∈ occurrences past) : .started token ∈ occurrences past := by
  obtain ⟨⟨w, stack⟩, passed, finishes⟩ := List.mem_map.mp finished
  obtain ⟨later, earlier, rfl, origin⟩ := run.at_moment passed
  cases stack with
  | nil => cases finishes
  | cons frame rest =>
    obtain rfl := Frame.of_finished finishes
    have started := started_of_ends origin rfl
    rw [occurrences, List.map_append]
    exact List.mem_append_right _ (List.mem_cons_of_mem _ started)

/-- A retrieval comes to its end for the locator that it was started for, and it has brought a module if and
only if the table has a file for it. -/
theorem ending_always (unnamed : setup.Unnamed) (answers : setup.policy.Answers) {w : World}
    {token : FetchToken} {rest : List Frame} (run : Run host (.fresh setup) past ⟨w, .retrieved token :: rest⟩)
    (untouched : ∀ action ∈ acted past, action.interferes = false) (pools : Pools setup.Holds w.loader) :
    ∃ r, Loader.Ending w.loader token r ∧
      (setup.Holds token.resource ↔ w.loader.anonymous.isSome = true) := by
  obtain ⟨before, earlier, l, rfl, run', answered⟩ :=
    answered_before answers run (unregistered_of_untouched untouched) rfl
  obtain ⟨home, registered⟩ := started_always run untouched (started_of_ends run rfl)
  obtain ⟨r, held⟩ := Option.isSome_iff_exists.mp registered
  obtain ⟨offers, some⟩ := unnamed.registrations (files_always run' fun action member =>
    untouched action (acted_subset _ _ member)) token.resource
  have loader : w.loader = _ := answered.loader.trans (Loader.foldl_define_unnamed answered.empty.1 offers)
  have named : w.loader.firstNamed = none := by
    rw [loader]
    exact answered.empty.2
  rw [← resolver_always run] at home
  refine ⟨r, pools.ending run.sound (solitary_always run) (coherent_always run) home (flying_of_ends run rfl)
    held named, some.trans ?_⟩
  rw [loader, Option.isSome_map, List.isSome_head?]

/-- Locators agree with their resources at every moment. -/
theorem pools_always (unnamed : setup.Unnamed) (answers : setup.policy.Answers)
    (run : Run host (.fresh setup) past m)
    (untouched : ∀ action ∈ acted past, action.interferes = false) :
    Pools setup.Holds m.world.loader := by
  refine run.invariant_acting untouched (P := fun _ m => Pools setup.Holds m.world.loader) ?_ ?_ ?_
  · rw [Machine.fresh, World.start_bare]
    exact .fresh _ _ _
  · intro past w frame rest run untouched still pools
    have unregistered := unregistered_of_untouched untouched
    have registrations := unnamed.registrations (files_always run untouched)
    have undisturbed := run.deed.undisturbed run.sound
      ((founded_always run).stack frame (List.mem_cons_self ..))
      (unclaimed_always answers run unregistered) still fun p => (registrations p).1
    refine undisturbed.pools pools run.sound ?_
    rintro token rfl
    obtain ⟨r, ending, brought⟩ := ending_always unnamed answers run untouched pools
    exact pools.finished run.sound (coherent_always run) ending brought.mp
  · intro past w action _ _ pools
    exact pools

/-- A resource that has been retrieved is at hand. -/
theorem completed_always (unnamed : setup.Unnamed) (answers : setup.policy.Answers)
    (run : Run host (.fresh setup) past m)
    (untouched : ∀ action ∈ acted past, action.interferes = false) {token : FetchToken}
    (finished : .finished token ∈ occurrences past) :
    m.world.loader.ledger.completed.get? token.resource = some token.locator := by
  revert finished
  refine run.invariant_acting untouched (P := fun past m => .finished token ∈ occurrences past →
    m.world.loader.ledger.completed.get? token.resource = some token.locator) ?_ ?_ ?_
  · intro finished
    cases finished
  · intro past w frame rest run untouched _ before finished
    rcases List.mem_cons.mp finished with finishes | earlier
    · obtain rfl := Frame.of_finished (w := w) finishes.symm
      have ledger : (w.finishFetch token).1.loader.ledger = _ :=
        (w.loader.finishFetch_quiet token).ledger
      change (w.finishFetch token).1.loader.ledger.completed.get? token.resource = some token.locator
      rw [ledger]
      exact (OrderedMap.get?_insert ..).trans (if_pos rfl)
    · have effect := frame.effect run.sound
      have done := before earlier
      obtain ⟨-, r, held, -, fetched, -⟩ := (pools_always unnamed answers run untouched).first done
      refine effect.completed (coherent_always run) ?_ done ⟨r, held, fetched⟩
      rintro other rfl
      exact flying_of_ends run rfl
  · intro past w action run allowed before finished
    refine before ((List.mem_cons.mp finished).resolve_left ?_)
    exact Occurrence.noConfusion

/-- A record whose factory has been entered has been saved. -/
theorem saved_of_entered (run : Run host (.fresh setup) past m) {r : RecordId} (member : r ∈ entered past) :
    .saved ≤ m.world.loader.status r := by
  have entries := (singleFlight_always run).entries r
  have once := List.count_pos_iff.mpr member
  have hasRun : (m.world.loader.record r).hasRun = true := by
    cases here : (m.world.loader.record r).hasRun with
    | true => rfl
    | false =>
      rw [here, Bool.toNat_false] at entries
      omega
  rw [Record.hasRun, Bool.and_eq_true, decide_eq_true_eq] at hasRun
  exact Status.le_trans (by decide) hasRun.1

/-- Whenever a resource has been retrieved for which the table holds a module without a name: every
registered locator that has it stands for one record, which was made for the locator that the retrieval was
started for; the fetcher was asked for it once; and of all records for it there is no more than one whose
factory was entered, and that once. -/
theorem resource_shared (unnamed : setup.Unnamed) (answers : setup.policy.Answers)
    (run : Run host (.fresh setup) past m)
    (untouched : ∀ action ∈ acted past, action.interferes = false) {token : FetchToken}
    (finished : .finished token ∈ occurrences past) (holds : setup.Holds token.resource) :
    let l := m.world.loader
    setup.resolver.physicalId token.locator = token.resource ∧
    (∃ r, (l.record r).locator = token.locator ∧ l.entry? token.locator = some r ∧ .saved ≤ l.status r ∧
      ∀ k x, l.entry? k = some x → setup.resolver.physicalId k = token.resource → x = r) ∧
    retrievals (occurrences past) token.resource = [token] ∧
    (entered past).countP (fun r => setup.resolver.physicalId (l.record r).locator = token.resource) ≤ 1 := by
  intro l
  have pools := pools_always unnamed answers run untouched
  have coherent := coherent_always run
  have resolver := resolver_always run
  have done := completed_always unnamed answers run untouched finished
  obtain ⟨home, r, held, own, -, saved⟩ := pools.first done
  rw [resolver] at home
  have source {k : Locator} (completed : l.ledger.completed.get? token.resource = some k) :
      k = token.locator := Option.some.inj (completed.symm.trans done)
  refine ⟨home, ⟨r, own, held, saved holds, fun k x there same => ?_⟩, ?_, ?_⟩
  · -- Nobody who has the resource is still waiting for it.
    have settled : l.status x ≠ .fetching := fun fetching => by
      obtain ⟨waiters, flying, -⟩ := coherent.expected ⟨x, there, fetching⟩
      rw [resolver, same] at flying
      cases (coherent.apart flying).symm.trans done
    have fetched : .fetched ≤ l.status x := by
      have known := run.sound.known there
      revert known settled
      cases l.status x <;> simp [Status.le_iff, Status.code]
    obtain ⟨first, completed, shared⟩ := pools.landed there fetched
    rw [resolver, same] at completed shared
    obtain rfl := source completed
    exact Option.some.inj ((shared holds).symm.trans held)
  · have once := retrievals_le_one run untouched token.resource
    have member : token ∈ retrievals (occurrences past) token.resource :=
      mem_retrievals.mpr ⟨started_of_finished run finished, rfl⟩
    obtain ⟨other, same⟩ := List.length_eq_one_iff.mp (Nat.le_antisymm once (List.length_pos_of_mem member))
    rw [same] at member ⊢
    rw [List.mem_singleton.mp member]
  · refine Nat.le_trans (List.countP_mono_left fun x member there => ?_)
      ((compilation_single_flight run).2.2.2.2.2.1 r)
    obtain ⟨first, completed, shared⟩ := pools.saved (saved_of_entered run member)
    rw [resolver, of_decide_eq_true there] at completed
    obtain rfl := source completed
    exact beq_iff_eq.mpr (Option.some.inj (shared.symm.trans held))

end

/-- A session over two files that are there under several names, of which one needs the other. -/
def Setup.versioned : Setup :=
  let config : Config := { rules := [⟨"page:/v1/", "page:/lib/"⟩, ⟨"page:/v2/", "page:/lib/"⟩] }
  { config
    resolver := config.resolver
    policy := .queued
    sink := .silent
    files := [(⟨"page:/lib/x"⟩, .mk none (some []) (.function [.giveBack (.int 1)] none)),
      (⟨"page:/lib/y"⟩, .mk none (some ["v2/x"])
        (.function [.get "v2/x" none none, .giveBack (.int 2)] none))] }

theorem Setup.versioned_unnamed : Setup.versioned.Unnamed := by
  constructor
  · decide
  · decide +kernel

/-- One file is asked for before it is retrieved, while it is, through the other, and afterwards. -/
theorem Setup.versioned_run : ∃ past m, Run (fun _ => True) (.fresh .versioned) past m ∧ m.stack = [] ∧
    (acted past).any Action.interferes = false ∧
    .finished ⟨⟨"page:/lib/x"⟩, ⟨"page:/v1/x"⟩⟩ ∈ occurrences past ∧
    Setup.versioned.Holds ⟨"page:/lib/x"⟩ ∧
    [⟨"page:/v1/x"⟩, ⟨"page:/v2/x"⟩, ⟨"page:/lib/x"⟩].all m.world.loader.registry.contains = true ∧
    (entered past).length = 2 := by
  have fresh : Run (fun _ => True) (.fresh .versioned) [] (.fresh .versioned) := .start
  have run := fresh.played 90 [.load [⟨"page:/v1/x"⟩] "first" [], .useModules ["v2/x", "v1/y"] "second" [],
    .completeNext, .completeAll, .useModules ["lib/x"] "third" []] (fun _ _ => trivial) (by decide +kernel)
  refine ⟨_, _, run, rfl, by decide +kernel, by decide +kernel, ?_, by decide +kernel, by decide +kernel⟩
  exact List.mem_cons_self ..

theorem resource_shared_versioned :
    ∃ past m r, Run (fun _ => True) (.fresh .versioned) past m ∧ m.stack = [] ∧
      (∀ action ∈ acted past, action.interferes = false) ∧
      .finished ⟨⟨"page:/lib/x"⟩, ⟨"page:/v1/x"⟩⟩ ∈ occurrences past ∧
      Setup.versioned.Holds ⟨"page:/lib/x"⟩ ∧
      (m.world.loader.record r).locator = ⟨"page:/v1/x"⟩ ∧
      m.world.loader.entry? ⟨"page:/v1/x"⟩ = some r ∧ m.world.loader.entry? ⟨"page:/v2/x"⟩ = some r ∧
      m.world.loader.entry? ⟨"page:/lib/x"⟩ = some r ∧
      retrievals (occurrences past) ⟨"page:/lib/x"⟩ = [⟨⟨"page:/lib/x"⟩, ⟨"page:/v1/x"⟩⟩] ∧
      (entered past).length = 2 := by
  obtain ⟨past, m, run, idle, untouched, finished, holds, registered, bodies⟩ := Setup.versioned_run
  have untouched := none_interfered untouched
  obtain ⟨-, ⟨r, own, held, -, one⟩, once, -⟩ :=
    resource_shared Setup.versioned_unnamed (.inl rfl) run untouched finished holds
  simp only [List.all_cons, List.all_nil, Bool.and_true, Bool.and_eq_true] at registered
  obtain ⟨-, second, third⟩ := registered
  obtain ⟨x, second⟩ := Option.isSome_iff_exists.mp second
  obtain ⟨y, third⟩ := Option.isSome_iff_exists.mp third
  obtain rfl := one _ x second (by decide +kernel)
  obtain rfl := one _ y third (by decide +kernel)
  exact ⟨past, m, y, run, idle, untouched, finished, holds, own, held, second, third, once, bodies⟩

end ModuleLoader
