import Mathlib.Data.List.Nodup
import ModuleLoader.Proofs.Effects.Queueing
import ModuleLoader.Proofs.Patches
import ModuleLoader.Proofs.Waiting

/-! What comes first. Whoever makes a request takes all that is queued to come before it and goes on when that
has been compiled; a module that somebody else has taken is not waited for. -/
namespace ModuleLoader

open Loader (Sound Landed Grows)

/-! What has been loaded and is still to be compiled before something else goes on. -/

/-- The modules of a request, if nobody wants their interfaces. -/
def Receiver.first (locators : List (Option Locator)) : Receiver → List Locator
  | .host _ => []
  | .discard _ => locators.filterMap id

mutual

def Continuation.laden : Continuation → List Locator
  | .arrive .. | .call _ => []
  | .request _ receiver | .preload _ receiver => receiver.laden
  | .gather locators receiver => receiver.first locators ++ receiver.laden

def Receiver.laden : Receiver → List Locator
  | .host _ => []
  | .discard next => next.laden

end

def Frame.laden : Frame → List Locator
  | .resume (.preload locators receiver) | .gather locators _ receiver | .collect locators _ receiver =>
    receiver.first locators ++ receiver.laden
  | .load _ next | .resume next | .preload next => next.laden
  | .request _ _ receiver | .deliver receiver _ => receiver.laden
  | _ => []

theorem Frame.laden_resume {next : Continuation} {k : Locator} (laden : k ∈ next.laden) :
    k ∈ (Frame.resume next).laden := by
  cases next with
  | preload locators receiver => exact List.mem_append_right _ laden
  | _ => exact laden

/-- A locator stands for a module that has been compiled, or is being compiled. -/
def Loader.Begun (l : Loader) (k : Locator) : Prop := ∃ r, l.entry? k = some r ∧ .compiling ≤ l.status r

/-- A locator stands for a module that has begun to be compiled, or that was retrieved without being
registered. -/
def Loader.Supplied (l : Loader) (k : Locator) : Prop :=
  ∃ r, l.entry? k = some r ∧ (l.status r = .fetched ∨ .compiling ≤ l.status r)

/-- It is a module's turn to be compiled before something else goes on, and nothing has been saved for it. -/
def Machine.Lacks (m : Machine) (k : Locator) : Prop :=
  ∃ r locators interfaces next below,
    m.stack = .compile r :: .collect locators interfaces (.discard next) :: below ∧
      m.world.loader.entry? k = some r ∧ m.world.loader.status r = .fetched ∧
      m.world.loader.canCompile r = false

/-- A module is still to be loaded and compiled before something goes on. -/
inductive Brought (stack : List Frame) (l : Loader) (g : Goal) (k : Locator) : Prop where
  | queued (id : String) (next : Continuation) (below : List Frame) (top : stack = .preload next :: below)
      (member : id ∈ l.preloads) (meant : l.resolve id none = some k) (goal : next.goal = g)
  | requested (ids : List String) (id : String) (next : Continuation)
      (frame : .request none ids (.discard next) ∈ stack) (member : id ∈ ids)
      (meant : l.resolve id none = some k) (goal : next.goal = g)
  | loading (wanted : List Locator) (locators : List (Option Locator)) (next : Continuation)
      (frame : .load wanted (.preload locators (.discard next)) ∈ stack) (member : some k ∈ locators)
      (asked : k ∈ wanted) (goal : next.goal = g)
  | waiting (b : BarrierId) (locators : List (Option Locator)) (next : Continuation)
      (waits : (l.barrier b).onDone = some (.preload locators (.discard next))) (member : some k ∈ locators)
      (asked : Landed l k ∨ Asks stack l k b) (goal : next.goal = g)
  /-- It has been loaded. -/
  | laden (f : Frame) (frame : f ∈ stack) (laden : k ∈ f.laden) (landed : Landed l k) (goal : f.goals = [g])
  /-- It has been loaded, and something else that is to come first is being loaded. -/
  | kept (b : BarrierId) (next : Continuation) (waits : (l.barrier b).onDone = some next)
      (laden : k ∈ next.laden) (landed : Landed l k) (goal : next.goal = g)
  /-- Its turn has come. -/
  | turn (r : RecordId) (locators : List (Option Locator)) (interfaces : List (Option Value))
      (next : Continuation) (below : List Frame)
      (top : stack = .compile r :: .collect locators interfaces (.discard next) :: below)
      (held : l.entry? k = some r) (fetched : .fetched ≤ l.status r) (goal : next.goal = g)

theorem World.Tame.resolve {w w' : World} (tame : w.Tame w') (id : String) (referrer : Option Locator) :
    w'.loader.resolve id referrer = w.loader.resolve id referrer := by
  simp only [Loader.resolve, tame.resolver, tame.config]

theorem Loader.landed_of_ready {l : Loader} {k : Locator} (ready : l.needsLoading k = false) :
    Landed l k := by
  unfold needsLoading at ready
  split at ready
  · rename_i r held
    exact ⟨r, held, Status.le_trans (by decide) (Nat.not_lt.mp (of_decide_eq_false ready))⟩
  · cases ready

section

variable {w : World} {frame : Frame} {rest : List Frame} {g : Goal} {k : Locator}

/-- What has been loaded goes with the request, until it is its turn. -/
theorem Brought.handed (landed : Landed w.loader k) (landed' : Landed (frame.exec w).1.loader k)
    (laden : k ∈ frame.laden) (goal : frame.goals = [g]) :
    Brought ((frame.exec w).2 ++ rest) (frame.exec w).1.loader g k := by
  cases frame with
  | load wanted next =>
    simp only [Frame.exec, World.load] at landed' ⊢
    split at landed'
    · rename_i nothing
      rw [if_pos nothing]
      exact .laden _ (List.mem_cons_self ..) (Frame.laden_resume laden) landed' goal
    · rename_i some
      rw [if_neg some]
      refine .kept ⟨w.loader.barriers.size⟩ next ?_ laden landed' (List.singleton_inj.mp goal)
      rw [Loader.barrier_opened (l := w.loader) rfl, if_pos rfl]
  | resume next =>
    cases next with
    | arrive => cases laden
    | call => cases laden
    | request | preload | gather => exact .laden _ (List.mem_cons_self ..) laden landed' goal
  | preload next =>
    simp only [Frame.exec, World.preload] at landed' ⊢
    split at landed'
    · exact .laden _ (List.mem_cons_self ..) (Frame.laden_resume laden) landed' goal
    · exact .laden _ (List.mem_cons_self ..) laden landed' goal
  | request referrer ids receiver => exact .laden _ (List.mem_cons_self ..) laden landed' goal
  | gather locators interfaces receiver =>
    cases locators with
    | nil =>
      refine .laden (.deliver receiver interfaces) (List.mem_cons_self ..) ?_ landed' goal
      refine (List.mem_append.mp laden).elim (fun first => ?_) id
      cases receiver <;> cases first
    | cons locator later =>
      have either : (∃ next, receiver = .discard next ∧ locator = some k) ∨
          k ∈ receiver.first later ++ receiver.laden := by
        rcases List.mem_append.mp laden with first | further
        · cases receiver with
          | host => cases first
          | discard next =>
            obtain ⟨_, member, rfl⟩ := List.mem_filterMap.mp first
            rcases List.mem_cons.mp member with here | below
            · exact .inl ⟨next, rfl, here.symm⟩
            · exact .inr (List.mem_append_left _ (List.mem_filterMap.mpr ⟨_, below, rfl⟩))
        · exact .inr (List.mem_append_right _ further)
      simp only [Frame.exec, World.gather] at landed' ⊢
      obtain ⟨next, rfl, rfl⟩ | further := either
      · obtain ⟨r, held, fetched⟩ := landed
        have found : (some k).bind w.loader.entry? = some r := held
        rw [found] at landed' ⊢
        exact .turn r later interfaces next rest rfl held fetched (List.singleton_inj.mp goal)
      · split at landed'
        · exact .laden (.collect later interfaces receiver) (by simp) further landed' goal
        · exact .laden (.gather later (interfaces ++ [none]) receiver) (by simp) further landed' goal
  | collect => exact .laden _ (List.mem_cons_self ..) laden landed' goal
  | deliver receiver interfaces =>
    cases receiver with
    | host => cases laden
    | discard next => exact .laden _ (List.mem_cons_self ..) (Frame.laden_resume laden) landed' goal
  | _ => cases laden

theorem World.compile_entry (w : World) (r : RecordId) (k : Locator) :
    (w.compile r).1.loader.entry? k = w.loader.entry? k := by
  unfold compile
  split
  · rfl
  · rfl
  · split
    · dsimp only
      split <;> rfl
    · rfl

/-- Whose turn it is begins to be compiled, unless nothing has been saved for it. -/
theorem World.compile_turn_over (w : World) {r : RecordId} (fetched : .fetched ≤ w.loader.status r) :
    .compiling ≤ (w.compile r).1.loader.status r ∨
      w.loader.status r = .fetched ∧ w.loader.canCompile r = false := by
  unfold compile
  split
  · rename_i compiling
    exact .inl (compiling ▸ Status.le_refl _)
  · rename_i compiled
    exact .inl (compiled ▸ Status.le_compiled _)
  · cases can : w.loader.canCompile r with
    | true =>
      have known := Status.ne_unknown_of_le (a := .fetched) (by decide) fetched
      have begun (interface : Value) : (w.loader.beginCompile r interface).status r = .compiling := by
        rw [Loader.beginCompile, Loader.status_updateRecord, if_pos ⟨rfl, Loader.index_lt_of_known known⟩]
        rfl
      refine .inl ?_
      simp only [if_true]
      split
      · exact Nat.le_of_eq (congrArg Status.code (begun _)).symm
      · rename_i value _
        have exported (l : Loader) : (l.setExports r value).status r = l.status r := by
          rw [Loader.setExports, Loader.status_updateRecord]
          split <;> rfl
        exact Nat.le_of_eq (congrArg Status.code ((exported _).trans (begun _))).symm
      · exact Nat.le_of_eq (congrArg Status.code (begun _)).symm
    | false =>
      refine .inr ⟨?_, rfl⟩
      have unsaved : ¬ .saved ≤ w.loader.status r := fun saved => by
        simp [Loader.canCompile, saved] at can
      revert fetched unsaved
      cases w.loader.status r <;> decide

/-- Whoever waits for a module to be loaded does so until it has been. -/
theorem Asks.told (sound : Sound w.loader) (grown : Grows w.loader (frame.exec w).1.loader)
    (told : Told ((frame.exec w).2 ++ rest) (frame.exec w).1.loader) {b : BarrierId}
    (asked : Landed w.loader k ∨ Asks (frame :: rest) w.loader k b) :
    Landed (frame.exec w).1.loader k ∨ Asks ((frame.exec w).2 ++ rest) (frame.exec w).1.loader k b := by
  obtain landed | asks := asked
  · exact .inl (grown.landed landed)
  · obtain still | settled := asks.step sound
    · exact .inr still
    · exact .inl (told.landed k b (List.mem_append_left _ settled))

/-- What goes on after a load waits while anybody asks. -/
theorem Asks.waiting (sound : Sound w.loader) {os : List Occurrence} {b : BarrierId} {next : Continuation}
    (linked : Linked os ((frame.exec w).2 ++ rest) (frame.exec w).1)
    (waits : (w.loader.barrier b).onDone = some next)
    (asks : Asks ((frame.exec w).2 ++ rest) (frame.exec w).1.loader k b) :
    ((frame.exec w).1.loader.barrier b).onDone = some next := by
  have balance := linked.balance b
  have held := asks.waits.held
  cases now : ((frame.exec w).1.loader.barrier b).onDone with
  | none =>
    have none := (linked.live b).mp now
    omega
  | some other =>
    obtain old | ⟨wanted, rfl⟩ := (frame.effect sound).waiting now
    · rw [← old, waits]
    · -- A load that begins is another one.
      simp only [Frame.exec, World.load] at now
      split at now
      · rw [← now, waits]
      · rw [Loader.barrier_opened (l := w.loader) rfl, if_neg] at now
        · rw [← now, waits]
        · exact Nat.ne_of_lt (Loader.inside_of_onDone waits)

/-- What is to come first is brought on by each step, until it is its turn. -/
theorem Brought.next (sound : Sound w.loader) (kept : ∀ locator, frame.occurrence w ≠ .removed locator)
    (told : Told ((frame.exec w).2 ++ rest) (frame.exec w).1.loader) {os : List Occurrence}
    (linked : Linked os ((frame.exec w).2 ++ rest) (frame.exec w).1)
    (brought : Brought (frame :: rest) w.loader g k) :
    Brought ((frame.exec w).2 ++ rest) (frame.exec w).1.loader g k ∨ (frame.exec w).1.loader.Begun k ∨
      Machine.Lacks ⟨w, frame :: rest⟩ k := by
  have effect := frame.effect sound
  have grown := (effect.orderly kept sound).2
  have resolve := effect.tame.resolve
  cases brought with
  | queued id next below top member meant goal =>
    cases top
    refine .inl ?_
    simp only [Frame.exec, World.preload]
    split
    · rename_i none
      rw [none] at member
      cases member
    · exact .requested _ id next (List.mem_cons_self ..) member meant goal
  | requested ids id next asks member meant goal =>
    rcases List.mem_cons.mp asks with rfl | below
    · refine .inl (.loading _ _ next (List.mem_cons_self ..) ?_ ?_ goal)
      · exact meant ▸ List.mem_map_of_mem member
      · exact List.mem_filterMap.mpr ⟨some k, meant ▸ List.mem_map_of_mem member, rfl⟩
    · exact .inl (.requested ids id next (List.mem_append_right _ below) member
        ((resolve id none).trans meant) goal)
  | loading wanted locators next loads member asked goal =>
    rcases List.mem_cons.mp loads with rfl | below
    · refine .inl ?_
      by_cases nothing : (wanted.filter w.loader.needsLoading).isEmpty = true
      · simp only [Frame.exec, World.load, if_pos nothing]
        have ready : w.loader.needsLoading k = false := by
          have absent := List.filter_eq_nil_iff.mp (List.isEmpty_iff.mp nothing) k asked
          exact Bool.not_eq_true _ ▸ absent
        refine .laden _ (List.mem_cons_self ..) ?_ (Loader.landed_of_ready ready)
          (congrArg (fun g => [g]) goal)
        exact List.mem_append_left _ (List.mem_filterMap.mpr ⟨some k, member, rfl⟩)
      · simp only [Frame.exec, World.load, if_neg nothing]
        refine .waiting ⟨w.loader.barriers.size⟩ locators next ?_ member ?_ goal
        · rw [Loader.barrier_opened (l := w.loader) rfl, if_pos rfl]
        · by_cases needs : w.loader.needsLoading k = true
          · exact .inr (.entry _ (List.mem_cons_self ..) (List.mem_filter.mpr ⟨asked, needs⟩))
          · exact .inl (Loader.landed_of_ready (Bool.not_eq_true _ ▸ needs))
    · exact .inl (.loading wanted locators next (List.mem_append_right _ below) member asked goal)
  | waiting b locators next waits member asked goal =>
    have asked := Asks.told sound grown told asked
    obtain still | resumed := effect.pending waits
    · exact .inl (.waiting b locators next still member asked goal)
    obtain landed | asks := asked
    · refine .inl (.laden _ (List.mem_append_left _ resumed) ?_ landed (congrArg (fun g => [g]) goal))
      exact List.mem_append_left _ (List.mem_filterMap.mpr ⟨some k, member, rfl⟩)
    · exact .inl (.waiting b locators next (asks.waiting sound linked waits) member (.inr asks) goal)
  | laden f loaded laden landed goal =>
    have landed' := grown.landed landed
    rcases List.mem_cons.mp loaded with rfl | below
    · exact .inl (.handed landed landed' laden goal)
    · exact .inl (.laden f (List.mem_append_right _ below) laden landed' goal)
  | kept b next waits laden landed goal =>
    have landed' := grown.landed landed
    obtain still | resumed := effect.pending waits
    · exact .inl (.kept b next still laden landed' goal)
    · exact .inl (.laden _ (List.mem_append_left _ resumed) (Frame.laden_resume laden) landed'
        (congrArg (fun g => [g]) goal))
  | turn r locators interfaces next below top held fetched goal =>
    cases top
    obtain begun | ⟨only, none⟩ := w.compile_turn_over fetched
    · exact .inr (.inl ⟨r, (w.compile_entry r k).trans held, begun⟩)
    · exact .inr (.inr ⟨r, locators, interfaces, next, below, rfl, held, only, none⟩)

end

/-- A module that was to come first has had its turn: it has been compiled since, as far as there was
anything to compile. -/
def Provided (past : List Machine) (m : Machine) (k : Locator) : Prop :=
  m.world.loader.Begun k ∨ ∃ moment ∈ past, moment.Lacks k

/-- A module has come first, or it is still to do so. -/
def Comes (past : List Machine) (m : Machine) (g : Goal) (k : Locator) : Prop :=
  Provided past m k ∨ Brought m.stack m.world.loader g k

section

variable {host : Action → Prop} {setup : Setup} {past : List Machine} {m : Machine} {g : Goal} {k : Locator}

theorem Provided.next (run : Run host (.fresh setup) past m)
    (kept : ∀ locator, .removed locator ∉ occurrences (m :: past)) {next : Machine}
    (stepped : m.step? = some next) (provided : Provided past m k) : Provided (m :: past) next k := by
  obtain ⟨r, held, begun⟩ | ⟨moment, passed, lacks⟩ := provided
  · obtain ⟨w, stack⟩ := m
    cases stack with
    | nil => cases stepped
    | cons frame rest =>
      cases Option.some.inj stepped
      obtain ⟨held, begun⟩ := run.keeps (not_removed kept (List.mem_cons_self ..)) (by decide) held begun
      exact .inl ⟨r, held, begun⟩
  · exact .inr ⟨moment, List.mem_cons_of_mem _ passed, lacks⟩

theorem Comes.next (run : Run host (.fresh setup) past m)
    (kept : ∀ locator, .removed locator ∉ occurrences (m :: past)) {next : Machine}
    (stepped : m.step? = some next) (comes : Comes past m g k) : Comes (m :: past) next g k := by
  obtain provided | brought := comes
  · exact .inl (provided.next run kept stepped)
  · have later := run.work stepped
    have told := told_always later kept
    have linked := linked_always later
    obtain ⟨w, stack⟩ := m
    cases stack with
    | nil => cases stepped
    | cons frame rest =>
      cases Option.some.inj stepped
      obtain still | begun | lacks :=
        brought.next run.sound (not_removed kept (List.mem_cons_self ..)) told linked
      · exact .inr still
      · exact .inl (.inl begun)
      · exact .inl (.inr ⟨_, List.mem_cons_self .., lacks⟩)

/-- The host's own steps do not keep anything from coming first. -/
theorem Comes.acted {w : World} (action : Action) (comes : Comes past ⟨w, []⟩ g k) :
    Comes (⟨w, []⟩ :: past) ⟨w, [.script .outer [action]]⟩ g k := by
  obtain (begun | ⟨moment, passed, lacks⟩) | brought := comes
  · exact .inl (.inl begun)
  · exact .inl (.inr ⟨moment, List.mem_cons_of_mem _ passed, lacks⟩)
  · refine .inr ?_
    cases brought with
    | waiting b locators next waits member asked goal =>
      refine .waiting b locators next waits member (asked.imp_right fun asks => ?_) goal
      cases asks with
      | entry locators frame => cases frame
      | flying p waiters flying member => exact .flying p waiters flying member
    | kept b next waits laden landed goal => exact .kept b next waits laden landed goal
    | queued id next below top => cases top
    | turn r locators interfaces next below top => cases top
    | requested ids id next frame => cases frame
    | loading wanted locators next frame => cases frame
    | laden f frame => cases frame

/-- What comes first after a step does so at every moment from then on. -/
theorem Comes.since (run : Run host (.fresh setup) past m)
    (kept : ∀ locator, .removed locator ∉ occurrences past) {later earlier : List Machine} {moment : Machine}
    (split : past = later ++ moment :: earlier)
    (first : ∀ next, Run host (.fresh setup) (moment :: earlier) next → Comes (moment :: earlier) next g k) :
    Comes past m g k := by
  induction later generalizing past m with
  | nil =>
    subst split
    exact first m run
  | cons last later ih =>
    subst split
    have earlier_kept : ∀ locator, .removed locator ∉ occurrences (later ++ moment :: earlier) :=
      fun locator removed => kept locator (List.mem_cons_of_mem _ removed)
    cases run with
    | work run stepped => exact (ih run earlier_kept rfl).next run kept stepped
    | act run action => exact (ih run earlier_kept rfl).acted action

theorem Machine.script_of_acting {action : Action} (acting : m.acting? = some action) :
    ∃ site later below, m.stack = .script site (action :: later) :: below := by
  obtain ⟨w, stack⟩ := m
  unfold acting? at acting
  split at acting
  · rename_i site _ later below top
    cases acting
    exact ⟨site, later, below, top⟩
  · cases acting

/-- What is to come first is queued, or it has come first, or somebody has taken it. -/
theorem queued_or_comes (run : Run host (.fresh setup) past m)
    (kept : ∀ locator, .removed locator ∉ occurrences past) {id : String}
    (given : id ∈ setup.config.preloads ∨ .preload id ∈ acted past)
    (meant : m.world.loader.resolve id none = some k) :
    id ∈ m.world.loader.preloads ∨ ∃ g, Comes past m g k := by
  revert kept given meant
  refine run.invariant (P := fun past m => (∀ locator, .removed locator ∉ occurrences past) →
    (id ∈ setup.config.preloads ∨ .preload id ∈ ModuleLoader.acted past) →
    m.world.loader.resolve id none = some k →
    id ∈ m.world.loader.preloads ∨ ∃ g, Comes past m g k) ?_ ?_ ?_
  · intro _ given _
    rw [Machine.fresh, World.start_bare]
    exact .inl (given.resolve_right List.not_mem_nil)
  · intro past w frame rest run before kept given meant
    have earlier : ∀ locator, .removed locator ∉ occurrences past :=
      fun locator removed => kept locator (List.mem_cons_of_mem _ removed)
    have meant' : w.loader.resolve id none = some k :=
      ((frame.effect run.sound).tame.resolve id none).symm.trans meant
    have known : id ∈ frame.queue w.loader.preloads ∨ ∃ g, Comes past ⟨w, frame :: rest⟩ g k := by
      have queued (member : id ∈ w.loader.preloads) :
          id ∈ frame.queue w.loader.preloads ∨ ∃ g, Comes past ⟨w, frame :: rest⟩ g k := by
        obtain same | ⟨next, rfl⟩ := frame.queue_cases w.loader.preloads
        · exact .inl (same member)
        · exact .inr ⟨next.goal, .inr (.queued id next rest rfl member meant' rfl)⟩
      obtain config | acts := given
      · exact (before earlier (.inl config) meant').elim queued .inr
      · obtain ⟨moment, passed, acting⟩ := List.mem_filterMap.mp acts
        rcases List.mem_cons.mp passed with rfl | passed
        · obtain ⟨site, later, below, top⟩ := Machine.script_of_acting acting
          cases top
          exact .inl (List.mem_append_right _ (List.mem_singleton_self id))
        · have acts := List.mem_filterMap.mpr ⟨moment, passed, acting⟩
          exact (before earlier (.inr acts) meant').elim queued .inr
    obtain member | ⟨g, comes⟩ := known
    · exact .inl (frame.exec_preloads w ▸ member)
    · exact .inr ⟨g, comes.next run kept (Machine.step?_cons ..)⟩
  · intro past w action run _ before kept given meant
    have earlier : ∀ locator, .removed locator ∉ occurrences past :=
      fun locator removed => kept locator (List.mem_cons_of_mem _ removed)
    obtain queued | ⟨g, comes⟩ := before earlier given meant
    · exact .inl queued
    · exact .inr ⟨g, comes.acted action⟩

/-- A request takes what is queued when it is made. -/
theorem comes_before_request (run : Run host (.fresh setup) past m)
    (kept : ∀ locator, .removed locator ∉ occurrences past) {later earlier : List Machine} {call : Machine}
    (split : past = later ++ call :: earlier) {ids : List String} {tag : String} {body : Script}
    (uses : call.acting? = some (.useModules ids tag body)) {id : String}
    (queued : id ∈ call.world.loader.preloads) (meant : call.world.loader.resolve id none = some k) :
    Comes past m (.callback call.world.issued) k := by
  refine Comes.since run kept split fun next run => ?_
  obtain ⟨site, later, below, top⟩ := Machine.script_of_acting uses
  obtain ⟨w, stack⟩ := call
  cases top
  cases run with
  | work run stepped =>
    cases Option.some.inj stepped
    exact .inr (.queued id _ _ rfl queued meant rfl)

/-- When a callback is called, nothing is left that was to come before it. -/
theorem provided_when_called (run : Run host (.fresh setup) past m) {n : Nat}
    (called : m.occurrence = .called n) (comes : Comes past m (.callback n) k) : Provided past m k := by
  refine comes.resolve_right fun brought => ?_
  have linked := linked_always run
  obtain ⟨w, stack⟩ := m
  cases stack with
  | nil => cases called
  | cons frame rest =>
    obtain ⟨callback, rfl, shape⟩ := Frame.of_calling called
    have goals : frame.goals = [.callback callback.number] := by
      obtain ⟨interfaces, rfl⟩ | rfl := shape <;> rfl
    have unladen : frame.laden = [] := by
      obtain ⟨interfaces, rfl⟩ | rfl := shape <;> rfl
    -- The callback is passed on once, so nothing else leads to it.
    have none : held rest w.loader (.callback callback.number) = 0 := by
      have balance := linked.callbacks callback.number
      change _ + held (frame :: rest) w.loader _ = _ at balance
      have single := List.nodup_iff_count_le_one.mp linked.distinct callback.number
      rw [held_cons, goals, List.count_singleton_self] at balance
      omega
    have nowhere (f : Frame) (member : f ∈ rest) : .callback callback.number ∉ f.goals := fun goal =>
      absurd none (Nat.ne_of_gt (held_pos (.inl (List.mem_flatMap.mpr ⟨f, member, goal⟩))))
    have unheld (b : BarrierId) (next : Continuation) (waits : (w.loader.barrier b).onDone = some next) :
        next.goal ≠ .callback callback.number := fun goal =>
      absurd none (Nat.ne_of_gt (held_pos (.inr (.inr (Loader.mem_goals.mpr ⟨b, next, waits, goal⟩)))))
    have leads {next : Continuation} (goal : next.goal = .callback callback.number) :
        Goal.callback callback.number ∈ [next.goal] := goal ▸ List.mem_singleton_self _
    cases brought with
    | queued id next below top =>
      cases top
      obtain ⟨interfaces, same⟩ | same := shape <;> cases same
    | turn r locators interfaces next below top =>
      cases top
      obtain ⟨interfaces, same⟩ | same := shape <;> cases same
    | requested ids id next asks member meant goal =>
      rcases List.mem_cons.mp asks with rfl | below
      · obtain ⟨interfaces, same⟩ | same := shape <;> cases same
      · exact nowhere _ below (leads goal)
    | loading wanted locators next loads member asked goal =>
      rcases List.mem_cons.mp loads with rfl | below
      · obtain ⟨interfaces, same⟩ | same := shape <;> cases same
      · exact nowhere _ below (leads goal)
    | waiting b locators next waits member asked goal => exact unheld b _ waits goal
    | laden f loaded laden landed goal =>
      rcases List.mem_cons.mp loaded with rfl | below
      · rw [unladen] at laden
        cases laden
      · exact nowhere f below (goal ▸ List.mem_singleton_self _)
    | kept b next waits laden landed goal => exact unheld b next waits goal

theorem Run.up_to {first : Machine} (run : Run host first past m) {later earlier : List Machine}
    {moment : Machine} (split : past = later ++ moment :: earlier) : Run host first earlier moment := by
  induction later generalizing past m with
  | nil =>
    subst split
    cases run <;> assumption
  | cons last later ih =>
    subst split
    cases run with
    | work run stepped => exact ih run rfl
    | act run action => exact ih run rfl

/-- Identifiers go on to mean what they did. -/
theorem Run.resolves (run : Run host (.fresh setup) past m) {moment : Machine} (passed : moment ∈ past)
    (id : String) (referrer : Option Locator) :
    moment.world.loader.resolve id referrer = m.world.loader.resolve id referrer := by
  refine run.lasting
    (Q := fun m => moment.world.loader.resolve id referrer = m.world.loader.resolve id referrer) ?_
    (fun _ _ same => same) passed rfl
  intro earlier w frame rest member run same
  exact same.trans ((frame.effect run.sound).tame.resolve id referrer).symm

/-- A module whose turn came with nothing saved for it has been loaded. -/
theorem Run.landed_of_lacks (run : Run host (.fresh setup) past m)
    (kept : ∀ locator, .removed locator ∉ occurrences past) {moment : Machine} (passed : moment ∈ past)
    (lacks : moment.Lacks k) : Landed m.world.loader k := by
  refine run.lasting (Q := fun m => Landed m.world.loader k) ?_ (fun _ _ landed => landed) passed ?_
  · intro earlier w frame rest member run landed
    exact ((frame.effect run.sound).orderly (not_removed kept member) run.sound).2.landed landed
  · obtain ⟨r, -, -, -, -, -, held, fetched, -⟩ := lacks
    exact ⟨r, held, fetched ▸ Status.le_refl _⟩

/-- When the callback of a request is called, each module that was queued to come first, at any time before
the request, has begun to be compiled or was retrieved without being registered; or it was registered only
after its turn; or else it had been taken before the request was made, and whoever took it still waits. -/
theorem preloaded_when_called (run : Run host (.fresh setup) past m)
    (kept : ∀ locator, .removed locator ∉ occurrences past) {later earlier : List Machine} {call : Machine}
    (split : past = later ++ call :: earlier) {ids : List String} {tag : String} {body : Script}
    (uses : call.acting? = some (.useModules ids tag body))
    (called : m.occurrence = .called call.world.issued) {id : String}
    (given : id ∈ setup.config.preloads ∨ .preload id ∈ acted earlier)
    (meant : m.world.loader.resolve id none = some k) :
    m.world.loader.Supplied k ∨
      ((∃ moment ∈ past, moment.Lacks k) ∧
        ∃ r, m.world.loader.entry? k = some r ∧
          (m.world.loader.status r = .saved ∨ m.world.loader.status r = .ready)) ∨
      (id ∉ call.world.loader.preloads ∧
        ∃ g, g ≠ .callback call.world.issued ∧ Brought m.stack m.world.loader g k) := by
  have passed : call ∈ past := split ▸ List.mem_append_right _ (List.mem_cons_self ..)
  have meant' : call.world.loader.resolve id none = some k := (run.resolves passed id none).trans meant
  have known : Provided past m k ∨ id ∉ call.world.loader.preloads ∧
      ∃ g, g ≠ .callback call.world.issued ∧ Brought m.stack m.world.loader g k := by
    by_cases queued : id ∈ call.world.loader.preloads
    · exact .inl (provided_when_called run called (comes_before_request run kept split uses queued meant'))
    · -- Somebody else has taken the module, and brings it on since.
      have before : Run host (.fresh setup) earlier call := run.up_to split
      have kept_since (locator : Locator) : .removed locator ∉ occurrences (call :: earlier) := by
        refine fun removed => kept locator ?_
        rw [split, occurrences, List.map_append]
        exact List.mem_append_right _ removed
      have kept_before (locator : Locator) : .removed locator ∉ occurrences earlier :=
        fun removed => kept_since locator (List.mem_cons_of_mem _ removed)
      obtain ⟨g, comes⟩ := (queued_or_comes before kept_before given meant').resolve_left queued
      have comes : Comes past m g k := Comes.since run kept split fun next run => by
        cases run with
        | work run stepped => exact comes.next run kept_since stepped
        | act => cases uses
      by_cases own : g = .callback call.world.issued
      · exact .inl (provided_when_called run called (own ▸ comes))
      · exact comes.imp_right fun brought => ⟨queued, g, own, brought⟩
  obtain (⟨r, held, begun⟩ | ⟨moment, passed, lacks⟩) | taken := known
  · exact .inl ⟨r, held, .inr begun⟩
  · obtain ⟨r, held, landed⟩ := run.landed_of_lacks kept passed lacks
    cases stage : m.world.loader.status r with
    | saved => exact .inr (.inl ⟨⟨moment, passed, lacks⟩, r, held, .inl stage⟩)
    | ready => exact .inr (.inl ⟨⟨moment, passed, lacks⟩, r, held, .inr stage⟩)
    | fetched => exact .inl ⟨r, held, .inl stage⟩
    | compiling => exact .inl ⟨r, held, .inr (stage ▸ Status.le_refl _)⟩
    | compiled => exact .inl ⟨r, held, .inr (stage ▸ by decide)⟩
    | _ => exact absurd (stage ▸ landed) (by decide)
  · exact .inr (.inr taken)

end

/-- A session in which `p` is to come before anything else. -/
def Setup.primed (policy : FetchPolicy) : Setup where
  config := { preloads := ["p"] }
  resolver := .flat
  policy
  sink := .silent
  files := [(⟨"mem:p"⟩, .mk none (some []) (.function [] none)),
    (⟨"mem:a"⟩, .mk none (some []) (.value (.int 1)))]

/-- A request is answered when `p` has been compiled for it. -/
theorem Setup.primed_once : ∃ past m later call earlier,
    Run (fun _ => True) (.fresh (.primed .immediate)) past m ∧
      (∀ locator, .removed locator ∉ occurrences past) ∧ past = later ++ call :: earlier ∧
      call.acting? = some (.useModules ["a"] "first" []) ∧ "p" ∈ call.world.loader.preloads ∧
      m.occurrence = .called call.world.issued ∧ m.world.loader.resolve "p" none = some ⟨"mem:p"⟩ ∧
      (m.world.loader.entry? ⟨"mem:p"⟩).map m.world.loader.status = some .compiled := by
  have fresh : Run (fun _ => True) (.fresh (.primed .immediate)) [] (.fresh (.primed .immediate)) := .start
  have run := (fresh.act (.useModules ["a"] "first" []) trivial).continued 38
  exact ⟨_, _, _, _, [_], run, none_removed (by decide +kernel), List.append_assoc .., rfl, by decide +kernel,
    by decide +kernel, by decide +kernel, by decide +kernel⟩

theorem preloaded_when_called_once : ∃ past m later call earlier,
    Run (fun _ => True) (.fresh (.primed .immediate)) past m ∧ past = later ++ call :: earlier ∧
      call.acting? = some (.useModules ["a"] "first" []) ∧ m.occurrence = .called call.world.issued ∧
      m.world.loader.Supplied ⟨"mem:p"⟩ := by
  obtain ⟨past, m, later, call, earlier, run, kept, split, uses, queued, called, meant, compiled⟩ :=
    Setup.primed_once
  refine ⟨past, m, later, call, earlier, run, split, uses, called, ?_⟩
  obtain supplied | ⟨-, r, held, early⟩ | ⟨taken, -⟩ :=
    preloaded_when_called run kept split uses called (.inl (List.mem_singleton_self "p")) meant
  · exact supplied
  · rw [held] at compiled
    cases Option.some.inj compiled ▸ early with
    | inl stage => cases stage
    | inr stage => cases stage
  · exact absurd queued taken

/-- A second request is answered while `p` is still being retrieved for the first one. -/
theorem Setup.primed_twice : ∃ past m later call earlier,
    Run (fun _ => True) (.fresh (.primed .queued)) past m ∧
      (∀ locator, .removed locator ∉ occurrences past) ∧ past = later ++ call :: earlier ∧
      call.acting? = some (.useModules ["b"] "second" []) ∧ m.occurrence = .called call.world.issued ∧
      m.world.loader.resolve "p" none = some ⟨"mem:p"⟩ ∧
      (m.world.loader.entry? ⟨"mem:p"⟩).map m.world.loader.status = some .fetching := by
  have fresh : Run (fun _ => True) (.fresh (.primed .queued)) [] (.fresh (.primed .queued)) := .start
  have run := ((fresh.played 60 [.define (.mk (some "b") (some []) (.value (.int 2))),
    .useModules ["a"] "first" []] (fun _ _ => trivial) (by decide +kernel)).act
    (.useModules ["b"] "second" []) trivial).continued 17
  exact ⟨_, _, _, _, _, run, none_removed (by decide +kernel), List.append_assoc .., rfl, by decide +kernel,
    by decide +kernel, by decide +kernel⟩

/-- Whoever asks while what is to come first is still being loaded for somebody else does not wait for it. -/
theorem answered_before_preload :
    ¬ ∀ (setup : Setup) (past : List Machine) (m : Machine) (later earlier : List Machine) (call : Machine)
        (ids : List String) (tag : String) (body : Script) (id : String) (k : Locator),
      Run (fun _ => True) (.fresh setup) past m → (∀ locator, .removed locator ∉ occurrences past) →
      past = later ++ call :: earlier → call.acting? = some (.useModules ids tag body) →
      m.occurrence = .called call.world.issued →
      (id ∈ setup.config.preloads ∨ .preload id ∈ acted earlier) →
      m.world.loader.resolve id none = some k → m.world.loader.Supplied k := by
  intro supplied
  obtain ⟨past, m, later, call, earlier, run, kept, split, uses, called, meant, fetching⟩ :=
    Setup.primed_twice
  obtain ⟨r, held, reached⟩ := supplied _ past m later earlier call _ _ _ "p" _ run kept split uses called
    (.inl (List.mem_singleton_self "p")) meant
  rw [held] at fetching
  rw [Option.some.inj fetching] at reached
  exact absurd reached (by decide)

end ModuleLoader
