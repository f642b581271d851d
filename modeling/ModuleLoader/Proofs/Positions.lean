import ModuleLoader.Proofs.Calls
import ModuleLoader.Proofs.Handing
import ModuleLoader.Proofs.Preloads

/-! The interfaces of a request, position by position. Whatever a request waits for on its way, it goes on to
carry what its identifiers meant when it was made, and takes down one interface for each of them: nothing if
the identifier has no meaning or nothing is registered there when its turn comes, and else the answer to the
call that compiles the module. -/
namespace ModuleLoader

open Loader (Sound)

/-- What an action asks for by identifiers, and as seen from where. -/
def World.requests? (w : World) (site : Site) : Action → Option (Option Locator × List String)
  | .useModules ids _ _ => some (none, ids)
  | .loadAsync ids _ _ => site.context.map fun c => (some (w.loader.record c.record).locator, ids)
  | _ => none

/-- The locators that the next step asks for, if it makes a request. -/
def Machine.requests? (m : Machine) : Option (List (Option Locator)) :=
  match m.stack with
  | .script site (action :: _) :: _ =>
    (m.world.requests? site action).map fun (referrer, ids) => ids.map (m.world.loader.resolve · referrer)
  | _ => none

/-- The interface that is taken down at a position, after those `before` it and with the locators `after` it
still to come. -/
inductive Position (past : List Machine) (receiver : Receiver) (before : List (Option Value))
    (after : List (Option Locator)) : Option Locator → Option Value → Prop where
  | nowhere : Position past receiver before after none none
  | absent {turn : Machine} {k : Locator} {below : List Frame} (passed : turn ∈ past)
      (stack : turn.stack = .gather (some k :: after) before receiver :: below)
      (absent : turn.world.loader.entry? k = none) : Position past receiver before after (some k) none
  | told {turn back : Machine} {k : Locator} {r : RecordId} {below : List Frame} {later earlier : List Machine}
      (split : past = later ++ back :: earlier)
      (stack : turn.stack = .gather (some k :: after) before receiver :: below)
      (held : turn.world.loader.entry? k = some r)
      (returned : Returned earlier turn (.collect after before receiver :: below) back) :
      Position past receiver before after (some k) back.world.answer

/-- The interfaces so far are those of the first positions. -/
def Filled (past : List Machine) (receiver : Receiver) (locators : List (Option Locator))
    (interfaces : List (Option Value)) : Prop :=
  ∀ i v, interfaces[i]? = some v → ∃ k, locators[i]? = some k ∧
    Position past receiver (interfaces.take i) (locators.drop (i + 1)) k v

/-- A callback that was passed on with a request for these locators. -/
def Callback.Wants (callback : Callback) (past : List Machine) (locators : List (Option Locator)) : Prop :=
  ∃ call ∈ past, call.world.issued = callback.number ∧ call.requests? = some locators

/-- A callback that was passed on without a request, to be called when something has been loaded. -/
def Callback.Attends (callback : Callback) (past : List Machine) : Prop :=
  ∃ call ∈ past, (∃ wanted, call.occurrence = .passed callback.number wanted) ∧ call.requests? = none

mutual

/-- What comes next goes back to requests that have been made. -/
def Continuation.Sought (l : Loader) (past : List Machine) : Continuation → Prop
  | .arrive .. => True
  | .request ids receiver => receiver.Sought l past (ids.map (l.resolve · none))
  | .preload locators receiver | .gather locators receiver => receiver.Sought l past locators
  | .call callback => callback.Attends past

def Receiver.Sought (l : Loader) (past : List Machine) : Receiver → List (Option Locator) → Prop
  | .host callback, locators => callback.Wants past locators
  | .discard next, _ => next.Sought l past

end

/-- A frame carries what has been requested, and interfaces for as many positions as are dealt with. -/
def Frame.Sought (l : Loader) (past : List Machine) : Frame → Prop
  | .load _ next | .resume next | .preload next => next.Sought l past
  | .request referrer ids receiver => receiver.Sought l past (ids.map (l.resolve · referrer))
  | .gather locators interfaces receiver => ∃ done, done.length = interfaces.length ∧
    receiver.Sought l past (done ++ locators) ∧ Filled past receiver (done ++ locators) interfaces
  | .deliver receiver interfaces => ∃ locators, locators.length = interfaces.length ∧
    receiver.Sought l past locators ∧ Filled past receiver locators interfaces
  | _ => True

/-- All that is to be done goes back to requests that have been made. -/
structure Sought (past : List Machine) (m : Machine) : Prop where
  frames : ∀ f ∈ m.stack, f.Sought m.world.loader past
  loads : ∀ b next, (m.world.loader.barrier b).onDone = some next → next.Sought m.world.loader past

section

variable {past past' : List Machine} {l l' : Loader} {receiver : Receiver} {before : List (Option Value)}
  {locators after : List (Option Locator)} {k : Option Locator} {v : Option Value}

theorem Position.mono (later : past <:+ past') (position : Position past receiver before after k v) :
    Position past' receiver before after k v := by
  cases position with
  | nowhere => exact .nowhere
  | absent passed stack absent => exact .absent (later.subset passed) stack absent
  | told split stack held returned =>
    obtain ⟨more, rfl⟩ := later
    subst split
    exact .told (List.append_assoc more _ _).symm stack held returned

theorem Filled.mono {interfaces : List (Option Value)} (later : past <:+ past')
    (filled : Filled past receiver locators interfaces) : Filled past' receiver locators interfaces := by
  intro i v here
  obtain ⟨k, there, position⟩ := filled i v here
  exact ⟨k, there, position.mono later⟩

/-- One more position is dealt with. -/
theorem Filled.snoc {done : List (Option Locator)} (count : done.length = before.length)
    (filled : Filled past receiver (done ++ k :: after) before)
    (position : Position past receiver before after k v) :
    Filled past receiver (done ++ k :: after) (before ++ [v]) := by
  intro i x here
  rcases Nat.lt_trichotomy i before.length with old | rfl | outside
  · rw [List.getElem?_append_left old] at here
    rw [List.take_append_of_le_length (Nat.le_of_lt old)]
    exact filled i x here
  · obtain rfl : v = x := by simpa using here
    refine ⟨k, by rw [← count]; simp, ?_⟩
    rw [List.take_left, ← count, List.drop_append, List.drop_of_length_le (Nat.le_succ _)]
    simpa using position
  · rw [List.getElem?_eq_none (by simp; omega)] at here
    cases here

theorem Callback.Wants.mono {callback : Callback} (later : past ⊆ past') (wants : callback.Wants past locators) :
    callback.Wants past' locators := by
  obtain ⟨call, passed, rest⟩ := wants
  exact ⟨call, later passed, rest⟩

mutual

theorem Continuation.Sought.mono (resolve : l'.resolve = l.resolve) (later : past ⊆ past') :
    ∀ {next : Continuation}, next.Sought l past → next.Sought l' past'
  | .arrive .., _ => trivial
  | .request ids receiver, sought => by
    unfold Continuation.Sought at sought ⊢
    rw [resolve]
    exact sought.mono resolve later
  | .preload locators receiver, sought | .gather locators receiver, sought => by
    unfold Continuation.Sought at sought ⊢
    exact sought.mono resolve later
  | .call callback, sought => by
    unfold Continuation.Sought at sought ⊢
    obtain ⟨call, passed, rest⟩ := sought
    exact ⟨call, later passed, rest⟩

theorem Receiver.Sought.mono (resolve : l'.resolve = l.resolve) (later : past ⊆ past') :
    ∀ {receiver : Receiver} {locators : List (Option Locator)}, receiver.Sought l past locators →
      receiver.Sought l' past' locators
  | .host callback, locators, sought => by
    unfold Receiver.Sought at sought ⊢
    exact sought.mono later
  | .discard next, _, sought => by
    unfold Receiver.Sought at sought ⊢
    exact sought.mono resolve later

end

theorem Frame.Sought.mono (resolve : l'.resolve = l.resolve) (later : past <:+ past') {f : Frame}
    (sought : f.Sought l past) : f.Sought l' past' := by
  cases f with
  | load _ next | resume next | preload next => exact Continuation.Sought.mono resolve later.subset sought
  | request referrer ids receiver =>
    unfold Sought at sought ⊢
    rw [resolve]
    exact Receiver.Sought.mono resolve later.subset sought
  | gather | deliver =>
    obtain ⟨done, count, sought, filled⟩ := sought
    exact ⟨done, count, sought.mono resolve later.subset, filled.mono later⟩
  | _ => trivial

end

section

variable {host : Action → Prop} {setup : Setup} {past : List Machine} {m : Machine}

/-- Identifiers mean the same before and after a step. -/
theorem Run.resolve_next {w : World} {frame : Frame} {rest : List Frame}
    (run : Run host (.fresh setup) past ⟨w, frame :: rest⟩) :
    (frame.exec w).1.loader.resolve = w.loader.resolve := by
  funext id referrer
  exact (frame.effect run.sound).tame.resolve id referrer

/-- The module whose turn has come has been asked for at the moment that put this on the stack. -/
theorem Machine.Leaves.turn {opened : Machine} {after : List (Option Locator)} {before : List (Option Value)}
    {receiver : Receiver} {below : List Frame} (sound : Sound opened.world.loader)
    (leaves : opened.Leaves (.collect after before receiver) below) :
    ∃ k r, opened.stack = .gather (some k :: after) before receiver :: below ∧
      opened.world.loader.entry? k = some r := by
  cases leaves with
  | @work w frame _ rest first last frames =>
    have hands := Frame.hands sound (frames ▸ List.mem_append_right _ (List.mem_cons_self ..))
    cases hands with
    | other plain => cases plain
    | @compiles k r _ _ _ held =>
      refine ⟨k, r, ?_, held⟩
      have exec : Frame.exec w (.gather (some k :: after) before receiver) =
          (w, [.compile r, .collect after before receiver]) := by
        simp only [Frame.exec, World.gather, Option.bind_some, held]
      rw [exec] at frames
      cases first with
      | nil => cases frames
      | cons f first =>
        cases first with
        | nil =>
          cases frames
          rfl
        | cons g first => simp at frames

/-- What a frame leaves has been requested if what it stands for has, and whatever waits for a load. -/
theorem Sought.handed {w : World} {frame f : Frame} {rest : List Frame}
    (run : Run host (.fresh setup) past ⟨w, frame :: rest⟩)
    (earlier : ∀ later moment before, ⟨w, frame :: rest⟩ :: past = later ++ moment :: before → Sought before moment)
    (member : f ∈ (frame.exec w).2) :
    f.Sought (frame.exec w).1.loader (⟨w, frame :: rest⟩ :: past) := by
  have resolve := run.resolve_next
  have later : past ⊆ ⟨w, frame :: rest⟩ :: past := List.subset_cons_self ..
  have latest : past <:+ ⟨w, frame :: rest⟩ :: past := List.suffix_cons ..
  have now := earlier [] _ past rfl
  have here := (now.frames frame (List.mem_cons_self ..)).mono resolve latest
  have hands := Frame.hands run.sound member
  cases hands with
  | other plain => cases f <;> trivial
  | @used site ids tag body actions callback number =>
    unfold Frame.Sought Continuation.Sought Receiver.Sought
    rw [resolve]
    exact ⟨_, List.mem_cons_self .., number.symm, rfl⟩
  | @wanted site c ids tag body actions callback inside number =>
    unfold Frame.Sought Receiver.Sought
    rw [resolve]
    refine ⟨_, List.mem_cons_self .., number.symm, ?_⟩
    simp only [Machine.requests?, World.requests?, inside, Option.map_some]
  | @loaded site locators tag body actions callback number =>
    unfold Frame.Sought Continuation.Sought
    refine ⟨_, List.mem_cons_self .., ⟨locators, ?_⟩, rfl⟩
    rw [number]
    rfl
  | waits => unfold Frame.Sought Continuation.Sought; trivial
  | arrived waits => exact (now.loads _ _ waits).mono resolve later
  | ready => exact here
  | requests =>
    unfold Frame.Sought Continuation.Sought at here
    exact here
  | preloads | gathers =>
    unfold Frame.Sought Continuation.Sought at here
    first
      | exact ⟨[], rfl, here, fun i v there => by simp at there⟩
      | exact here
  | resolves =>
    unfold Frame.Sought Continuation.Sought
    unfold Frame.Sought at here
    rw [resolve] at here
    exact here
  | unqueued => exact here
  | queued =>
    unfold Frame.Sought Receiver.Sought
    exact here
  | gathered =>
    obtain ⟨done, count, sought, filled⟩ := here
    rw [List.append_nil] at sought filled
    exact ⟨done, count, sought, filled⟩
  | @skips locator locators interfaces receiver nowhere =>
    obtain ⟨done, count, sought, filled⟩ := here
    have position : Position (⟨w, .gather (locator :: locators) interfaces receiver :: rest⟩ :: past) receiver
        interfaces locators locator none := by
      cases locator with
      | none => exact .nowhere
      | some k => exact .absent (List.mem_cons_self ..) rfl nowhere
    refine ⟨done ++ [locator], by simp [count], ?_, ?_⟩
    · rw [List.append_assoc]
      exact sought
    · rw [List.append_assoc]
      exact filled.snoc count position
  | compiles => trivial
  | @collects after before receiver =>
    -- The call was made when it was this position's turn, and what had been dealt with then still has.
    obtain ⟨since, turn, origin, rfl, atop, leaves⟩ := run.opened [] rfl
    obtain ⟨k, r, stack, held⟩ := leaves.turn (run.up_to rfl).sound
    have asked := (earlier (_ :: since) turn origin rfl).frames _ (stack ▸ List.mem_cons_self ..)
    have suffix : origin <:+ ⟨w, .collect after before receiver :: rest⟩ :: (since ++ turn :: origin) :=
      (List.suffix_cons turn origin).trans ((List.suffix_append since _).trans (List.suffix_cons ..))
    have resolved : (Frame.exec w (.collect after before receiver)).1.loader.resolve = turn.world.loader.resolve := by
      funext id referrer
      exact (run.resolves (List.mem_append_right _ (List.mem_cons_self ..)) id referrer).symm
    obtain ⟨done, count, sought, filled⟩ := asked.mono resolved suffix
    have returned : Returned (since ++ turn :: origin) turn (.collect after before receiver :: rest)
        ⟨w, .collect after before receiver :: rest⟩ := ⟨rfl, since, origin, rfl, atop⟩
    refine ⟨done ++ [some k], by simp [count], ?_, ?_⟩
    · rw [List.append_assoc]
      exact sought
    · rw [List.append_assoc]
      exact filled.snoc count (.told (List.nil_append _).symm stack held returned)
  | goesOn =>
    obtain ⟨locators, count, sought, filled⟩ := here
    unfold Receiver.Sought at sought
    exact sought

/-- What holds at the start and is brought about by each step, where it may be used for all moments before,
holds at every moment. -/
theorem Run.always {P : List Machine → Machine → Prop} (initial : P [] (.fresh setup))
    (worked : ∀ past w frame rest, Run host (.fresh setup) past ⟨w, frame :: rest⟩ →
      (∀ later moment before, ⟨w, frame :: rest⟩ :: past = later ++ moment :: before → P before moment) →
      P (⟨w, frame :: rest⟩ :: past) ⟨(frame.exec w).1, (frame.exec w).2 ++ rest⟩)
    (acted : ∀ past w action, Run host (.fresh setup) past ⟨w, []⟩ → host action → P past ⟨w, []⟩ →
      P (⟨w, []⟩ :: past) ⟨w, [.script .outer [action]]⟩)
    (run : Run host (.fresh setup) past m) : P past m := by
  have every {past : List Machine} {m : Machine}
      (all : P past m ∧ ∀ later moment before, past = later ++ moment :: before → P before moment) :
      ∀ later moment before, m :: past = later ++ moment :: before → P before moment := by
    intro later moment before split
    cases later with
    | nil =>
      obtain ⟨rfl, rfl⟩ := List.cons.inj split
      exact all.1
    | cons last later => exact all.2 later moment before (List.cons.inj split).2
  refine (run.invariant (P := fun past m => P past m ∧
    ∀ later moment before, past = later ++ moment :: before → P before moment) ?_ ?_ ?_).1
  · exact ⟨initial, fun later moment before split => by simp at split⟩
  · intro past w frame rest run all
    exact ⟨worked past w frame rest run (every all), every all⟩
  · intro past w action run allowed all
    exact ⟨acted past w action run allowed all.1, every all⟩

theorem sought_always (run : Run host (.fresh setup) past m) : Sought past m := by
  refine run.always (P := Sought) ?_ ?_ ?_
  · refine ⟨List.forall_mem_nil _, fun b next waits => ?_⟩
    rw [Machine.fresh, World.start_bare] at waits
    cases waits
  · intro past w frame rest run earlier
    have now := earlier [] _ past rfl
    have resolve := run.resolve_next
    have latest : past <:+ ⟨w, frame :: rest⟩ :: past := List.suffix_cons ..
    refine ⟨fun f member => ?_, fun b next waits => ?_⟩
    · rcases List.mem_append.mp member with new | old
      · exact Sought.handed run earlier new
      · exact (now.frames f (List.mem_cons_of_mem _ old)).mono resolve latest
    · obtain old | ⟨wanted, rfl⟩ := (frame.effect run.sound).waiting waits
      · exact (now.loads b next old).mono resolve latest.subset
      · have here := now.frames _ (List.mem_cons_self ..)
        unfold Frame.Sought at here
        exact here.mono resolve latest.subset
  · intro past w action _ _ now
    have later : past ⊆ ⟨w, []⟩ :: past := List.subset_cons_self ..
    exact ⟨List.forall_mem_singleton.mpr trivial, fun b next waits => (now.loads b next waits).mono rfl later⟩

/-- A callback is passed on once. -/
theorem Run.passed_once (run : Run host (.fresh setup) past m) {first second : Machine}
    (one : first ∈ past) (other : second ∈ past) {number : Nat} {wanted also : List Locator}
    (passes : first.occurrence = .passed number wanted) (again : second.occurrence = .passed number also) :
    first = second := by
  have distinct := (linked_always run).distinct
  clear run
  induction past with
  | nil => cases one
  | cons last past ih =>
    have among {moment : Machine} {wanted : List Locator} (passed : moment ∈ past)
        (passes : moment.occurrence = .passed number wanted) : number ∈ passedOn (occurrences past) :=
      List.mem_filterMap.mpr ⟨_, List.mem_map_of_mem passed, by rw [passes]; rfl⟩
    have twice {moment : Machine} {wanted also : List Locator} (passed : moment ∈ past)
        (passes : moment.occurrence = .passed number wanted) (again : last.occurrence = .passed number also) :
        False := by
      rw [occurrences, List.map_cons, again] at distinct
      exact (List.nodup_cons.mp distinct).1 (among passed passes)
    rcases List.mem_cons.mp one with rfl | early <;> rcases List.mem_cons.mp other with rfl | late
    · rfl
    · exact (twice late again passes).elim
    · exact (twice early passes again).elim
    · refine ih early late ?_
      rw [occurrences, List.map_cons, passedOn, List.filterMap_cons] at distinct
      split at distinct
      · exact distinct
      · exact (List.nodup_cons.mp distinct).2

theorem Machine.passes_of_requests {locators : List (Option Locator)} (requests : m.requests? = some locators) :
    ∃ wanted, m.occurrence = .passed m.world.issued wanted := by
  unfold requests? at requests
  split at requests
  · rename_i site action later below stack
    have occurs : m.occurrence = (Frame.script site (action :: later)).occurrence m.world := by
      rw [occurrence, stack]
    rw [occurs]
    cases action with
    | useModules ids tag body => exact ⟨_, rfl⟩
    | loadAsync ids tag body =>
      cases inside : site.context with
      | none => simp [World.requests?, inside] at requests
      | some c =>
        refine ⟨ids.filterMap (m.world.loader.resolve · (some (m.world.loader.record c.record).locator)), ?_⟩
        simp only [Frame.occurrence, World.asks?, inside, Option.map_some]
    | _ => cases requests
  · cases requests

/-- Whoever has made a request with a callback is called with an interface for each position. -/
theorem Run.delivers (run : Run host (.fresh setup) past m) {call : Machine}
    {locators : List (Option Locator)} (passed : call ∈ past) (requests : call.requests? = some locators)
    (called : m.occurrence = .called call.world.issued) :
    ∃ callback interfaces below, m.stack = .deliver (.host callback) interfaces :: below ∧
      callback.number = call.world.issued ∧ interfaces.length = locators.length ∧
      Filled past (.host callback) locators interfaces := by
  obtain ⟨wanted, passes⟩ := Machine.passes_of_requests requests
  have frames := (sought_always run).frames
  obtain ⟨w, stack⟩ := m
  cases stack with
  | nil => cases called
  | cons frame below =>
    have here := frames frame (List.mem_cons_self ..)
    obtain ⟨callback, number, ⟨interfaces, rfl⟩ | rfl⟩ := Frame.of_calling called
    · obtain ⟨own, count, wants, filled⟩ := here
      unfold Receiver.Sought at wants
      obtain ⟨made, there, issued, same⟩ := wants
      obtain ⟨also, again⟩ := Machine.passes_of_requests same
      obtain rfl := run.passed_once passed there passes (by rw [again, issued, number])
      cases requests.symm.trans same
      exact ⟨callback, interfaces, below, rfl, number, count.symm, filled⟩
    · unfold Frame.Sought Continuation.Sought at here
      obtain ⟨made, there, ⟨also, again⟩, none⟩ := here
      obtain rfl := run.passed_once passed there passes (by rw [again, number])
      cases requests.symm.trans none

end

end ModuleLoader
