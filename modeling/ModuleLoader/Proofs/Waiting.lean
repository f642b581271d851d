import ModuleLoader.Proofs.Callbacks
import ModuleLoader.Proofs.Effects.Deeds
import ModuleLoader.Proofs.Lifecycle

/-! Who waits for a load. What a load goes on to is pending until it is its turn; a locator waits at a load
until its retrieval is over, and then until its dependencies have been waited for. -/
namespace ModuleLoader

open Loader (Sound Landed)

/-- A load, or what comes of one, goes on to this. -/
inductive Pending (stack : List Frame) (l : Loader) (next : Continuation) : Prop where
  | load (locators : List Locator) (member : .load locators next ∈ stack)
  | resume (member : .resume next ∈ stack)
  | barrier (b : BarrierId) (waits : (l.barrier b).onDone = some next)

/-- A locator is still waited for by a load. -/
inductive WaitsAt (stack : List Frame) (l : Loader) (d : Locator) (b : BarrierId) : Prop where
  | entry (locators : List Locator) (frame : .entries locators b ∈ stack) (member : d ∈ locators)
  | flying (p : PhysicalId) (waiters : List Waiter) (flying : l.ledger.inFlight.get? p = some waiters)
      (member : ⟨d, b⟩ ∈ waiters)
  | settled (frame : .settled d b ∈ stack)
  /-- Its dependencies are being loaded. -/
  | dependencies (r : RecordId) (known : l.status r ≠ .unknown) (own : (l.record r).locator = d)
      (pending : Pending stack l (.arrive b r))

theorem Pending.mono {stack stack' : List Frame} {l : Loader} {next : Continuation}
    (more : ∀ f ∈ stack, f ∈ stack') (pending : Pending stack l next) : Pending stack' l next := by
  cases pending with
  | load locators member => exact .load locators (more _ member)
  | resume member => exact .resume (more _ member)
  | barrier b waits => exact .barrier b waits

theorem WaitsAt.mono {stack stack' : List Frame} {l : Loader} {d : Locator} {b : BarrierId}
    (more : ∀ f ∈ stack, f ∈ stack') (waits : WaitsAt stack l d b) : WaitsAt stack' l d b := by
  cases waits with
  | entry locators frame member => exact .entry locators (more _ frame) member
  | flying p waiters flying member => exact .flying p waiters flying member
  | settled frame => exact .settled (more _ frame)
  | dependencies r known own pending => exact .dependencies r known own (pending.mono more)

theorem held_pos {stack : List Frame} {l : Loader} {g : Goal}
    (reached : g ∈ stack.flatMap Frame.goals ∨ g ∈ l.ledger.goals ∨ g ∈ l.goals) :
    0 < held stack l g := by
  rw [held]
  rcases reached with frames | ledger | loads
  · have := List.count_pos_iff.mpr frames
    omega
  · have := List.count_pos_iff.mpr ledger
    omega
  · have := List.count_pos_iff.mpr loads
    omega

theorem Pending.held {stack : List Frame} {l : Loader} {next : Continuation}
    (pending : Pending stack l next) : 0 < held stack l next.goal := by
  apply held_pos
  cases pending with
  | load locators member => exact .inl (List.mem_flatMap.mpr ⟨_, member, List.mem_cons_self ..⟩)
  | resume member => exact .inl (List.mem_flatMap.mpr ⟨_, member, List.mem_cons_self ..⟩)
  | barrier b waits => exact .inr (.inr (Loader.mem_goals.mpr ⟨b, next, waits, rfl⟩))

theorem WaitsAt.held {stack : List Frame} {l : Loader} {d : Locator} {b : BarrierId}
    (waits : WaitsAt stack l d b) : 0 < held stack l (.barrier b) := by
  cases waits with
  | entry locators frame member =>
    refine held_pos (.inl (List.mem_flatMap.mpr ⟨_, frame, ?_⟩))
    exact List.mem_replicate.mpr ⟨Nat.ne_of_gt (List.length_pos_of_mem member), rfl⟩
  | flying p waiters flying member =>
    obtain ⟨before, after, split, -, -⟩ := OrderedMap.entries_split flying
    refine held_pos (.inr (.inl ?_))
    rw [Ledger.goals, split, List.flatMap_append, List.flatMap_cons]
    exact List.mem_append_right _ (List.mem_append_left _ (List.mem_map_of_mem member))
  | settled frame => exact held_pos (.inl (List.mem_flatMap.mpr ⟨_, frame, List.mem_cons_self ..⟩))
  | dependencies r known own pending => exact pending.held

section

variable {w w' : World} {frame : Frame} {frames rest : List Frame} {o : Occurrence}

/-- Those who wait for a retrieval do so until it is over. -/
theorem Effect.flying (effect : Effect w frame o w' frames) {p : PhysicalId} {waiters : List Waiter}
    {waiter : Waiter} (flying : w.loader.ledger.inFlight.get? p = some waiters)
    (member : waiter ∈ waiters) :
    (∃ now, w'.loader.ledger.inFlight.get? p = some now ∧ waiter ∈ now) ∨
      .settled waiter.locator waiter.barrier ∈ frames := by
  have same (ledger : w'.loader.ledger = w.loader.ledger) :
      ∃ now, w'.loader.ledger.inFlight.get? p = some now ∧ waiter ∈ now :=
    ⟨waiters, by rw [ledger, flying], member⟩
  cases effect with
  | calm tame ledger => exact .inl (same ledger)
  | removed locator tame loader => exact .inl (same (by rw [loader]; rfl))
  | passed wanted calm => exact .inl (same calm.ledger)
  | called number calm => exact .inl (same calm.ledger)
  | opened load nonempty tame ledger => exact .inl (same ledger)
  | arrived b tame ledger => exact .inl (same ledger)
  | joined other others tame there ledger =>
    rw [ledger, OrderedMap.get?_insert]
    split
    · rename_i here
      rw [here, flying] at there
      cases there
      exact .inl ⟨_, rfl, List.mem_append_left _ member⟩
    · exact .inl ⟨waiters, flying, member⟩
  | started other token tame here grounded stale ledger =>
    rw [ledger, OrderedMap.get?_insert, if_neg]
    · exact .inl ⟨waiters, flying, member⟩
    · rintro rfl
      rw [grounded] at flying
      cases flying
  | finished token tame here ledger =>
    by_cases this : token.resource = p
    · rw [this, flying]
      exact .inr (List.mem_map_of_mem member)
    · rw [ledger, OrderedMap.get?_erase, if_neg this]
      exact .inl ⟨waiters, flying, member⟩

/-- What goes on after a load does so when the last entry has arrived. -/
theorem Effect.pending (effect : Effect w frame o w' frames) {b : BarrierId} {next : Continuation}
    (waits : (w.loader.barrier b).onDone = some next) :
    (w'.loader.barrier b).onDone = some next ∨ .resume next ∈ frames := by
  have same (barriers : w'.loader.barriers = w.loader.barriers) :
      (w'.loader.barrier b).onDone = some next := by
    rw [Loader.barrier, barriers]
    exact waits
  cases effect with
  | calm tame ledger barriers => exact .inl (same barriers)
  | removed locator tame loader => exact .inl (same (by rw [loader]; rfl))
  | passed wanted calm => exact .inl (same calm.barriers)
  | called number calm => exact .inl (same calm.barriers)
  | joined waiter waiters tame flying ledger barriers => exact .inl (same barriers)
  | started waiter token tame here grounded stale ledger barriers => exact .inl (same barriers)
  | finished token tame here ledger barriers => exact .inl (same barriers)
  | opened load nonempty tame ledger barriers =>
    rw [Loader.barrier_opened barriers, if_neg]
    · exact .inl waits
    · exact Nat.ne_of_lt (Loader.inside_of_onDone waits)
  | arrived x tame ledger counted =>
    by_cases here : b = x
    · subst here
      obtain ⟨-, -, rfl⟩ | ⟨-, barriers, -⟩ := counted
      · rw [waits]
        exact .inr (List.mem_singleton_self _)
      · rw [Loader.barrier_changed (Loader.inside_of_onDone waits) barriers, if_pos rfl]
        exact .inl waits
    · have other : ¬ (x.index = b.index ∧ b.index < w.loader.barriers.size) := by
        rintro ⟨same, -⟩
        exact here (congrArg BarrierId.mk same).symm
      obtain ⟨-, barriers, -⟩ | ⟨-, barriers, -⟩ := counted <;>
        rw [Loader.barrier, barriers, Table.get_modify, if_neg other] <;> exact .inl waits

/-- What nothing waits for leaves nothing that comes together with other entries. -/
theorem Effect.aside (effect : Effect w frame o w' frames) (goals : frame.goals = [])
    (other : frame.token? = none) : ∀ f ∈ frames, ∀ b, .barrier b ∉ f.goals := by
  have none {gs : List Goal} (same : frames.flatMap Frame.goals = gs) (b : BarrierId)
      (absent : .barrier b ∉ gs) : ∀ f ∈ frames, .barrier b ∉ f.goals := fun f member goal =>
    absent (same ▸ List.mem_flatMap.mpr ⟨f, member, goal⟩)
  intro f member b
  cases effect with
  | calm tame ledger barriers orderly same => exact none (same.trans goals) b (List.not_mem_nil) f member
  | removed locator tame loader inHand same => exact none (same.trans goals) b List.not_mem_nil f member
  | passed wanted calm issued before after => exact none after b (by simp) f member
  | called number calm before after => exact none after b List.not_mem_nil f member
  | opened same => cases same; cases goals
  | joined waiter waiters tame flying ledger barriers orderly inHand some => cases goals.symm.trans some
  | started waiter token tame same grounded stale ledger barriers orderly some =>
    cases goals.symm.trans some
  | arrived b tame ledger counted orderly inHand some => cases goals.symm.trans some
  | finished token tame same => cases same; cases other

/-- Somebody begins to wait for a retrieval when a load comes to an entry, and nobody waits any longer when
it is over. -/
theorem Deed.ledger (deed : Deed w frame w' frames) :
    w'.loader.ledger = w.loader.ledger ∨
      (∃ locator later b, frame = .entries (locator :: later) b ∧ w' = (w.enter locator b).1) ∨
      ∃ token, frame = .retrieved token ∧ w' = (w.finishFetch token).1 := by
  cases deed with
  | aside outside stays => exact .inl stays.ledger
  | queued site later id body patch waits loader => exact .inl (by rw [loader]; rfl)
  | patched site later id body patch r held compiled loader => exact .inl (by rw [loader])
  | removed site later key loader => exact .inl (by rw [loader]; rfl)
  | registered site action later registration registers loader =>
    refine .inl ?_
    obtain loader | ⟨derived, loader⟩ := loader <;> rw [loader]
    · exact ((w.loader.register_edits registration none).quiet id).ledger
    · exact ((w.loader.defineDerived_edits registration derived).quiet id).ledger
  | filed site later resource draft loader => exact .inl (by rw [loader])
  | handed site later index token held loader => exact .inl (by rw [loader])
  | @answered _ token taken _ takes loader =>
    refine .inl ((taken.evaluate_calm token.resource).ledger.trans ?_)
    rw [loader]
  | entered locator later b => exact .inr (.inl ⟨locator, later, b, rfl, rfl⟩)
  | finished token => exact .inr (.inr ⟨token, rfl, rfl⟩)
  | ended r => exact .inl rfl
  | applied key r => exact .inl rfl

end

/-- A registered locator has landed unless it is being retrieved. -/
theorem Loader.landed_of_settled {l : Loader} {locator : Locator} (sound : Sound l)
    (registered : (l.entry? locator).isSome = true) (settled : ¬ l.Fetches locator) :
    Landed l locator := by
  obtain ⟨r, held⟩ := Option.isSome_iff_exists.mp registered
  have known := sound.known held
  have ended : l.status r ≠ .fetching := fun fetching => settled ⟨r, held, fetching⟩
  refine ⟨r, held, ?_⟩
  revert known ended
  cases l.status r <;> decide

/-! What one frame does about who waits. -/

namespace World

variable {w : World}

theorem retrieve_frames (w : World) (token : FetchToken) :
    ∀ f ∈ (w.retrieve token).2, ∃ token, f = .retrieved token := by
  unfold retrieve
  dsimp only
  split <;> simp

/-- Whoever is asked for is told at once, or joins those who wait for the retrieval. -/
theorem enter_waits (sound : Sound w.loader) (locator : Locator) (b : BarrierId) :
    let flying := w.loader.ledger.inFlight
    let resource := w.loader.resolver.physicalId locator
    ((w.enter locator b).1.loader.entry? locator).isSome = true ∧
      ((.settled locator b ∈ (w.enter locator b).2 ∧ Landed (w.enter locator b).1.loader locator ∧
          (w.enter locator b).1.loader.ledger = w.loader.ledger) ∨
        (∀ f ∈ (w.enter locator b).2, ∃ token, f = .retrieved token) ∧
          (w.enter locator b).1.loader.ledger.inFlight =
            flying.insert resource ((flying.get? resource).getD [] ++ [⟨locator, b⟩])) := by
  have becomes := w.loader.ensure_becomes locator
  have here := w.loader.entry_ensure locator locator .fetching
  rw [if_pos rfl] at here
  obtain ⟨-, base, ledger, -⟩ := w.loader.ensure_quiet locator .fetching
  unfold enter
  generalize w.loader.ensure locator .fetching = ensured at *
  obtain ⟨l, r⟩ := ensured
  dsimp only at *
  rw [← base, ← ledger]
  have sound := becomes.sound sound
  by_cases ended : Status.fetched ≤ l.status r
  · rw [if_pos ended]
    exact ⟨Option.isSome_iff_exists.mpr ⟨r, here⟩,
      .inl ⟨List.mem_singleton_self _, ⟨r, here, ended⟩, rfl⟩⟩
  · rw [if_neg ended]
    have orderly := l.awaitResource_orderly ⟨locator, b⟩ sound
    obtain ⟨r', held, -⟩ := orderly.2.keeps here
    have registered := Option.isSome_iff_exists.mpr ⟨r', held⟩
    obtain ⟨known, found, same⟩ | ⟨waiters, -, flying, joined, ledger⟩ |
      ⟨-, grounded, started, ledger⟩ := l.awaitResource_cases ⟨locator, b⟩
    · rw [same] at orderly registered ⊢
      refine ⟨registered, .inl ⟨List.mem_singleton_self _, ?_, ((l.share_edits locator known).quiet id).ledger⟩⟩
      exact Loader.landed_of_settled orderly.1 registered
        (Loader.share_ends (Loader.retrieved?_fetched found) locator)
    · rw [joined]
      refine ⟨registered, .inr ⟨List.forall_mem_nil _, ?_⟩⟩
      rw [ledger, flying, Option.getD_some]
    · rw [started]
      obtain ⟨-, kept, -, retrieved, -⟩ := retrieve_spec
        { w with loader := (l.awaitResource ⟨locator, b⟩).1 }
        ⟨l.resolver.physicalId locator, locator⟩
      obtain ⟨r'', held, -⟩ := (retrieved orderly.1).2.keeps held
      refine ⟨Option.isSome_iff_exists.mpr ⟨r'', held⟩, .inr ⟨retrieve_frames _ _, ?_⟩⟩
      rw [kept, ledger, grounded, Option.getD_none, List.nil_append]

end World

/-- A load still asks for a locator: it has not come to it yet, or the retrieval is under way. -/
inductive Asks (stack : List Frame) (l : Loader) (d : Locator) (b : BarrierId) : Prop where
  | entry (locators : List Locator) (frame : .entries locators b ∈ stack) (member : d ∈ locators)
  | flying (p : PhysicalId) (waiters : List Waiter) (flying : l.ledger.inFlight.get? p = some waiters)
      (member : ⟨d, b⟩ ∈ waiters)

theorem Asks.waits {stack : List Frame} {l : Loader} {d : Locator} {b : BarrierId}
    (asks : Asks stack l d b) : WaitsAt stack l d b := by
  cases asks with
  | entry locators frame member => exact .entry locators frame member
  | flying p waiters flying member => exact .flying p waiters flying member

section

variable {w : World} {frame : Frame} {rest : List Frame} {d : Locator} {b : BarrierId}

/-- A load asks for a locator until it is told that the retrieval is over. -/
theorem Asks.step (sound : Sound w.loader) (asks : Asks (frame :: rest) w.loader d b) :
    Asks ((frame.exec w).2 ++ rest) (frame.exec w).1.loader d b ∨ .settled d b ∈ (frame.exec w).2 := by
  cases asks with
  | entry locators entries member =>
    rcases List.mem_cons.mp entries with rfl | below
    · cases locators with
      | nil => cases member
      | cons locator later =>
        rcases List.mem_cons.mp member with rfl | later'
        · obtain ⟨settled, -⟩ | ⟨-, flying⟩ := (World.enter_waits sound d b).2
          · exact .inr (List.mem_append_left _ settled)
          · have under := congrArg (OrderedMap.get? · (w.loader.resolver.physicalId d)) flying
            rw [OrderedMap.get?_insert, if_pos rfl] at under
            exact .inl (.flying _ _ under (List.mem_append_right _ (List.mem_singleton_self _)))
        · refine .inl (.entry later ?_ later')
          exact List.mem_append_left _ (List.mem_append_right _ (List.mem_singleton_self _))
    · exact .inl (.entry locators (List.mem_append_right _ below) member)
  | flying p waiters flying member =>
    obtain ⟨now, flying, member⟩ | settled := (frame.effect sound).flying flying member
    · exact .inl (.flying p now flying member)
    · exact .inr settled

/-- What a load goes on to is pending until it is its turn. -/
theorem Pending.next {next : Continuation} (sound : Sound w.loader)
    (pending : Pending (frame :: rest) w.loader next) :
    Pending ((frame.exec w).2 ++ rest) (frame.exec w).1.loader next ∨ frame = .resume next := by
  cases pending with
  | load locators member =>
    rcases List.mem_cons.mp member with rfl | below
    · refine .inl ?_
      simp only [Frame.exec, World.load]
      split
      · exact .resume (List.mem_cons_self ..)
      · refine .barrier ⟨w.loader.barriers.size⟩ ?_
        rw [Loader.barrier_opened (l := w.loader) rfl, if_pos rfl]
    · exact .inl (.load locators (List.mem_append_right _ below))
  | resume member =>
    rcases List.mem_cons.mp member with rfl | below
    · exact .inr rfl
    · exact .inl (.resume (List.mem_append_right _ below))
  | barrier b waits =>
    obtain still | resumed := (frame.effect sound).pending waits
    · exact .inl (.barrier b still)
    · exact .inl (.resume (List.mem_append_left _ resumed))

/-- A module that is told that it has been waited for is ready. -/
theorem World.arrive_ready {r : RecordId} (known : w.loader.status r ≠ .unknown) (b : BarrierId) :
    .ready ≤ (w.arrive b (some r)).1.loader.status r := by
  have counted : (w.arrive b (some r)).1.loader.status r = (w.loader.markReady r).status r := by
    simp only [arrive, Loader.arrive, Loader.countDown]
    split <;> rfl
  rw [counted, Loader.markReady]
  split
  · rw [Loader.status_setStatus, if_pos ⟨rfl, Loader.index_lt_of_known known⟩]
    exact Status.le_refl _
  · exact Nat.not_lt.mp ‹_›

/-- A locator waits until it is found that there is nothing to load, or its module is told that it is
ready. -/
theorem WaitsAt.next (sound : Sound w.loader) (bears : w.loader.Bears frame.relies)
    (own : ∀ r, w.loader.entry? d = some r → (w.loader.record r).locator = d)
    (waits : WaitsAt (frame :: rest) w.loader d b) :
    WaitsAt ((frame.exec w).2 ++ rest) (frame.exec w).1.loader d b ∨
      frame = .settled d b ∧ (w.loader.settledEntry d).2 = .missing ∨
      ∃ r, w.loader.status r ≠ .unknown ∧ (w.loader.record r).locator = d ∧
        .ready ≤ (frame.exec w).1.loader.status r := by
  have asking (asks : Asks (frame :: rest) w.loader d b) :
      WaitsAt ((frame.exec w).2 ++ rest) (frame.exec w).1.loader d b := by
    obtain asks | settled := asks.step sound
    · exact asks.waits
    · exact .settled (List.mem_append_left _ settled)
  have turn := bears.turn sound
  cases waits with
  | entry locators entries member => exact .inl (asking (.entry locators entries member))
  | flying p waiters flying member => exact .inl (asking (.flying p waiters flying member))
  | settled settled =>
    rcases List.mem_cons.mp settled with rfl | below
    · cases held : w.loader.entry? d with
      | none => exact .inr (.inl ⟨rfl, by simp only [Loader.settledEntry, held]⟩)
      | some r =>
        have known := sound.known held
        have rises := (w.loader.settledEntry_orderly d sound).2.rises r
        obtain ⟨-, missing⟩ | ⟨saved, ⟨-, ready⟩ | ⟨-, waiting⟩⟩ := w.loader.settledEntry_cases held
        · exact .inr (.inl ⟨rfl, missing⟩)
        · refine .inr (.inr ⟨r, known, own r held, ?_⟩)
          simp only [Frame.exec, World.settle, ready]
          exact World.arrive_ready (w := { w with loader := (w.loader.settledEntry d).1 })
            (Status.ne_unknown_of_le known rises) b
        · refine .inl (.dependencies r (Status.ne_unknown_of_le known (turn.rises r)) ?_
            (.load (w.loader.pureDependencies r).1 ?_))
          · exact (turn.locator bears known).trans (own r held)
          · simp only [Frame.exec, World.settle, waiting]
            exact List.mem_cons_self ..
    · exact .inl (.settled (List.mem_append_right _ below))
  | dependencies r known here pending =>
    obtain pending | rfl := pending.next sound
    · exact .inl (.dependencies r (Status.ne_unknown_of_le known (turn.rises r))
        ((turn.locator bears known).trans here) pending)
    · exact .inr (.inr ⟨r, known, here, World.arrive_ready known b⟩)

/-- Only those for whom a retrieval is over go on. -/
theorem Frame.settled_of_exec (sound : Sound w.loader) (new : .settled d b ∈ (frame.exec w).2) :
    (∃ later, frame = .entries (d :: later) b) ∨ ∃ token, frame = .retrieved token := by
  have quiet (goals : frame.goals = []) (other : frame.token? = none) : False :=
    (frame.effect sound).aside goals other _ new b (List.mem_singleton_self _)
  cases frame with
  | entries locators x =>
    cases locators with
    | nil => cases new
    | cons locator later =>
      rcases List.mem_append.mp new with told | last
      · obtain same | ⟨token, same⟩ := w.enter_frames locator x _ told
        · cases same
          exact .inl ⟨later, rfl⟩
        · cases same
      · cases List.mem_singleton.mp last
  | retrieved token => exact .inr ⟨token, rfl⟩
  | load locators next =>
    simp only [exec, World.load] at new
    split at new <;> simp at new
  | settled locator x =>
    simp only [exec, World.settle, World.arrive] at new
    split at new <;> simp at new
  | resume next => cases next <;> simp [exec, World.resume, World.arrive, World.callBack] at new
  | preload next =>
    simp only [exec, World.preload] at new
    split at new <;> simp at new
  | gather locators interfaces receiver =>
    cases locators with
    | nil => simp [exec, World.gather] at new
    | cons locator later =>
      simp only [exec, World.gather] at new
      split at new <;> simp at new
  | deliver receiver interfaces => cases receiver <;> simp [exec, World.callBack] at new
  | request | collect => simp [exec] at new
  | _ => exact (quiet rfl rfl).elim

end

/-- Whoever goes on has been retrieved, and whoever waits is registered. -/
structure Told (stack : List Frame) (l : Loader) : Prop where
  landed : ∀ d b, .settled d b ∈ stack → Landed l d
  registered : ∀ p waiters, l.ledger.inFlight.get? p = some waiters →
    ∀ waiter ∈ waiters, (l.entry? waiter.locator).isSome = true

section

variable {host : Action → Prop} {setup : Setup} {past : List Machine} {m : Machine}

theorem Told.step {w : World} {frame : Frame} {rest : List Frame} (told : Told (frame :: rest) w.loader)
    (sound : Sound w.loader) (deed : Deed w frame (frame.exec w).1 (frame.exec w).2)
    (kept : ∀ locator, frame.occurrence w ≠ .removed locator) :
    Told ((frame.exec w).2 ++ rest) (frame.exec w).1.loader := by
  have grown := ((frame.effect sound).orderly kept sound).2
  have later {d : Locator} (registered : (w.loader.entry? d).isSome = true) :
      ((frame.exec w).1.loader.entry? d).isSome = true := by
    obtain ⟨r, held⟩ := Option.isSome_iff_exists.mp registered
    obtain ⟨r', held, -⟩ := grown.keeps held
    exact Option.isSome_iff_exists.mpr ⟨r', held⟩
  refine ⟨fun d b member => ?_, fun p waiters flying waiter member => ?_⟩
  · rcases List.mem_append.mp member with new | below
    · obtain ⟨others, rfl⟩ | ⟨token, rfl⟩ := Frame.settled_of_exec sound new
      · obtain ⟨-, ⟨-, landed, -⟩ | ⟨only, -⟩⟩ := World.enter_waits sound d b
        · exact landed
        · rcases List.mem_append.mp new with told | last
          · obtain ⟨token, same⟩ := only _ told
            cases same
          · cases List.mem_singleton.mp last
      · obtain ⟨waiter, waited, same⟩ := List.mem_map.mp new
        cases same
        refine Loader.landed_of_settled (Loader.finishFetch_orderly _ token sound).1 (later ?_)
          (Loader.finishFetch_ends sound token waited)
        have waited : waiter ∈ (w.loader.ledger.inFlight.get? token.resource).getD [] := waited
        cases under : w.loader.ledger.inFlight.get? token.resource with
        | none =>
          rw [under] at waited
          cases waited
        | some waiters =>
          rw [under] at waited
          exact told.registered _ waiters under waiter waited
    · exact grown.landed (told.landed d b (List.mem_cons_of_mem _ below))
  · obtain same | ⟨locator, others, b, rfl, same⟩ | ⟨token, rfl, same⟩ := deed.ledger
    · rw [same] at flying
      exact later (told.registered p waiters flying waiter member)
    · obtain ⟨registered, ⟨-, -, ledger⟩ | ⟨-, inFlight⟩⟩ := World.enter_waits sound locator b
      · rw [same, ledger] at flying
        exact later (told.registered p waiters flying waiter member)
      · rw [same, inFlight, OrderedMap.get?_insert] at flying
        split at flying
        · cases flying
          rcases List.mem_append.mp member with before | new
          · cases under : w.loader.ledger.inFlight.get? (w.loader.resolver.physicalId locator) with
            | none =>
              rw [under] at before
              cases before
            | some waiting =>
              rw [under] at before
              exact later (told.registered _ waiting under waiter before)
          · cases List.mem_singleton.mp new
            exact registered
        · exact later (told.registered p waiters flying waiter member)
    · change (w.loader.finishFetch token).1.ledger.inFlight.get? p = some waiters at flying
      rw [(w.loader.finishFetch_quiet token).ledger] at flying
      exact later (told.registered p waiters (OrderedMap.get?_erase_eq_some.mp flying).2 waiter member)

theorem told_always (run : Run host (.fresh setup) past m)
    (kept : ∀ locator, .removed locator ∉ occurrences past) : Told m.stack m.world.loader := by
  revert kept
  refine run.invariant (P := fun past m => (∀ locator, .removed locator ∉ occurrences past) →
    Told m.stack m.world.loader) ?_ ?_ ?_
  · intro _
    rw [Machine.fresh, World.start_bare]
    exact ⟨fun d b member => (by cases member), fun p waiters flying => (by cases flying)⟩
  · intro past w frame rest run told kept
    refine (told fun locator removed => kept locator (List.mem_cons_of_mem _ removed)).step run.sound
      run.deed fun locator removes => kept locator ?_
    exact List.mem_map.mpr ⟨_, List.mem_cons_self .., removes⟩
  · intro past w action _ _ told kept
    obtain ⟨-, registered⟩ := told fun locator removed => kept locator (List.mem_cons_of_mem _ removed)
    refine ⟨fun d b member => ?_, registered⟩
    cases List.mem_singleton.mp member

end

end ModuleLoader
