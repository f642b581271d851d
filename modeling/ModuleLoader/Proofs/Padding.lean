import ModuleLoader.Proofs.Padding.Insertion
import ModuleLoader.Proofs.Positions

/-! Two sessions in which the host does the same, but for one request: one of them asks for more identifiers, which
mean nothing. They go on side by side until the callback of the request is called. -/
namespace ModuleLoader

section

variable {resolve : String → Option Locator → Option Locator} {n : Nat} {marks : List Bool}
  {frame frame' : Frame}

/-- The callback is called in both sessions at once. -/
theorem Frame.Padded.calls (together : frame.Padded resolve n marks frame') (w w' : World) :
    frame'.occurrence w' = .called n ↔ frame.occurrence w = .called n := by
  cases together with
  | plain plain =>
    have never (w : World) : frame.occurrence w ≠ .called n := fun called => by
      obtain ⟨callback, -, ⟨interfaces, rfl⟩ | rfl⟩ := Frame.of_calling called <;> cases plain
    exact iff_of_false (never w') (never w)
  | resume goes => cases goes <;> exact Iff.rfl
  | deliver given => cases given <;> exact Iff.rfl
  | _ => exact Iff.rfl

/-- The actions are the same in both sessions. -/
theorem Machine.Padded.acts {m m' : Machine} (padded : m.Padded resolve n marks m') : m'.acting? = m.acting? := by
  obtain ⟨w, stack⟩ := m
  obtain ⟨w', stack'⟩ := m'
  cases padded.stack with
  | nil => rfl
  | @cons frame =>
    rename_i together _
    cases together with
    | plain =>
      cases frame with
      | script site actions => cases actions <;> rfl
      | _ => rfl
    | _ => rfl

theorem Machine.Padded.calls {m m' : Machine} (padded : m.Padded resolve n marks m') :
    m'.occurrence = .called n ↔ m.occurrence = .called n := by
  obtain ⟨w, stack⟩ := m
  obtain ⟨w', stack'⟩ := m'
  cases padded.stack with
  | nil => exact Iff.rfl
  | cons together => exact together.calls w w'

end

/-- How many positions are left to the request that is being dealt with. -/
def Machine.positions (m : Machine) : Nat :=
  match m.stack with
  | .gather locators _ _ :: _ => locators.length
  | _ => 0

/-- Two sessions side by side: the request has been made in both of them, and identifiers mean the same. -/
structure Machine.Abreast (resolve : String → Option Locator → Option Locator) (n : Nat) (marks : List Bool)
    (m m' : Machine) : Prop extends Machine.Padded resolve n marks m m' where
  issued : n < m.world.issued
  meaning : m.world.loader.resolve = resolve

section

variable {resolve : String → Option Locator → Option Locator} {n : Nat} {marks : List Bool}
  {host : Action → Prop} {setup : Setup} {past since before : List Machine} {first first' m m' : Machine}

/-- The session with the padded request deals with an identifier that has been put in. -/
structure Machine.Lags (n : Nat) (m' next' : Machine) : Prop where
  stepped : m'.step? = some next'
  fewer : next'.positions < m'.positions
  idle : m'.acting? = none
  uncalled : m'.occurrence ≠ .called n

/-- Both sessions take a step. -/
structure Machine.Marches (resolve : String → Option Locator → Option Locator) (n : Nat) (marks : List Bool)
    (m m' next next' : Machine) : Prop where
  stepped : m.step? = some next
  along : m'.step? = some next'
  abreast : next.Abreast resolve n marks next'

theorem Machine.Abreast.next (run : Run host (.fresh setup) past m) (abreast : m.Abreast resolve n marks m')
    (uncalled : m.occurrence ≠ .called n) :
    m.stack = [] ∧ m'.stack = [] ∨ (∃ next', Machine.Lags n m' next' ∧ m.Abreast resolve n marks next') ∨
      ∃ next next', Machine.Marches resolve n marks m m' next next' := by
  obtain ⟨⟨stack, t, world, padded⟩, issued, meaning⟩ := abreast
  obtain ⟨w, frames⟩ := m
  obtain ⟨w', frames'⟩ := m'
  obtain rfl : w' = w.awaiting t := world
  cases stack with
  | nil => exact .inl ⟨rfl, rfl⟩
  | @cons frame frame' rest rest' together others =>
    refine .inr ?_
    obtain ⟨locators, interfaces, receiver, rfl, again⟩ | next :=
      together.next padded run.sound meaning issued uncalled
    · refine .inl ⟨⟨w.awaiting t, .gather locators (interfaces ++ [none]) receiver :: rest'⟩, ?_, ?_⟩
      · exact ⟨rfl, Nat.lt_succ_self _, rfl, Occurrence.noConfusion⟩
      · exact ⟨⟨.cons again others, t, rfl, padded⟩, issued, meaning⟩
    · refine .inr ⟨_, _, rfl, rfl, ⟨List.rel_append next.stack others, next.world⟩, ?_, ?_⟩
      · exact Nat.lt_of_lt_of_le issued (frame.effect run.sound).tame.issued
      · exact run.resolve_next.trans meaning

/-- The session with the padded request catches up with the other one. -/
theorem Machine.Abreast.caught_up (run : Run host (.fresh setup) past m) (abreast : m.Abreast resolve n marks m')
    (uncalled : m.occurrence ≠ .called n) :
    ∃ lag m'', Run host m' lag m'' ∧ acted lag = [] ∧ (∀ moment ∈ lag, moment.occurrence ≠ .called n) ∧
      m.Abreast resolve n marks m'' ∧
      (m.stack = [] ∧ m''.stack = [] ∨ ∃ next next', Machine.Marches resolve n marks m m'' next next') := by
  induction left : m'.positions using Nat.strongRecOn generalizing m' with
  | ind left ih =>
    subst left
    obtain rest | ⟨next', lags, again⟩ | marches := abreast.next run uncalled
    · exact ⟨[], m', .start, rfl, List.forall_mem_nil _, abreast, .inl rest⟩
    · obtain ⟨lag, m'', later, silent, calls, caught, goes⟩ := ih _ lags.fewer again rfl
      have one : Run host m' [m'] next' := .work .start lags.stepped
      refine ⟨lag ++ [m'], m'', one.trans later, ?_, ?_, caught, goes⟩
      · simp only [acted, List.filterMap_append, List.filterMap_cons, lags.idle, List.filterMap_nil, List.append_nil]
        exact silent
      · exact List.forall_mem_append.mpr ⟨calls, List.forall_mem_singleton.mpr lags.uncalled⟩
    · exact ⟨[], m', .start, rfl, List.forall_mem_nil _, abreast, .inr marches⟩

/-- The host takes a step in both sessions. -/
theorem Machine.Abreast.act {w w' : World} (abreast : Machine.Abreast resolve n marks ⟨w, []⟩ ⟨w', []⟩)
    (action : Action) :
    Machine.Abreast resolve n marks ⟨w, [.script .outer [action]]⟩ ⟨w', [.script .outer [action]]⟩ :=
  ⟨⟨.cons (.plain rfl) .nil, abreast.world⟩, abreast.issued, abreast.meaning⟩

theorem acted_cons (m : Machine) (past : List Machine) : acted (m :: past) = m.acting?.toList ++ acted past := by
  rw [acted, List.filterMap_cons]
  cases m.acting? <;> rfl

/-- Whatever happens without the identifiers put in happens with them. -/
theorem Run.with_padding (earlier : Run host (.fresh setup) before first)
    (abreast : first.Abreast resolve n marks first') (run : Run host first since m)
    (uncalled : ∀ moment ∈ since, moment.occurrence ≠ .called n) :
    ∃ since' m', Run host first' since' m' ∧ acted since' = acted since ∧
      (∀ moment ∈ since', moment.occurrence ≠ .called n) ∧ m.Abreast resolve n marks m' := by
  induction run with
  | start => exact ⟨[], first', .start, rfl, List.forall_mem_nil _, abreast⟩
  | @work since m next run stepped ih =>
    obtain ⟨here, uncalled⟩ := List.forall_mem_cons.mp uncalled
    obtain ⟨since', m', run', same, calls, abreast⟩ := ih uncalled
    obtain ⟨lag, m'', later, silent, quiet, abreast, ⟨rest, -⟩ | ⟨next, next', marches⟩⟩ :=
      abreast.caught_up (earlier.trans run) here
    · rw [Machine.step?, rest] at stepped
      cases stepped
    · obtain rfl := Option.some.inj (stepped.symm.trans marches.stepped)
      refine ⟨m'' :: (lag ++ since'), next', .work (run'.trans later) marches.along, ?_, ?_, marches.abreast⟩
      · rw [acted_cons, acted_cons, abreast.acts, ← same, acted, List.filterMap_append]
        exact congrArg _ (congrArg (· ++ _) silent)
      · exact List.forall_mem_cons.mpr ⟨mt abreast.calls.mp here, List.forall_mem_append.mpr ⟨quiet, calls⟩⟩
  | @act since w run action allowed ih =>
    obtain ⟨here, uncalled⟩ := List.forall_mem_cons.mp uncalled
    obtain ⟨since', ⟨w', stack⟩, run', same, calls, abreast⟩ := ih uncalled
    obtain rfl := List.forall₂_nil_left_iff.mp abreast.stack
    refine ⟨⟨w', []⟩ :: since', _, .act run' action allowed, ?_, ?_, abreast.act action⟩
    · rw [acted_cons, acted_cons, same]
      rfl
    · exact List.forall_mem_cons.mpr ⟨Occurrence.noConfusion, calls⟩

/-- Whatever happens with them happens without them. -/
theorem Run.without_padding (earlier : Run host (.fresh setup) before first)
    (abreast : first.Abreast resolve n marks first') {since' : List Machine} (run' : Run host first' since' m')
    (uncalled : ∀ moment ∈ since', moment.occurrence ≠ .called n) :
    ∃ since m, Run host first since m ∧ acted since' = acted since ∧
      (∀ moment ∈ since, moment.occurrence ≠ .called n) ∧ m.Abreast resolve n marks m' := by
  induction run' with
  | start => exact ⟨[], first, .start, rfl, List.forall_mem_nil _, abreast⟩
  | @work since' m' next' run' stepped ih =>
    obtain ⟨here, uncalled⟩ := List.forall_mem_cons.mp uncalled
    obtain ⟨since, m, run, same, calls, abreast⟩ := ih uncalled
    have uncalled := mt abreast.calls.mpr here
    obtain ⟨-, rest⟩ | ⟨after, lags, again⟩ | ⟨next, after, marches⟩ :=
      abreast.next (earlier.trans run) uncalled
    · rw [Machine.step?, rest] at stepped
      cases stepped
    · obtain rfl := Option.some.inj (stepped.symm.trans lags.stepped)
      refine ⟨since, m, run, ?_, calls, again⟩
      rw [acted_cons, lags.idle]
      exact same
    · obtain rfl := Option.some.inj (stepped.symm.trans marches.along)
      refine ⟨m :: since, next, .work run marches.stepped, ?_, List.forall_mem_cons.mpr ⟨uncalled, calls⟩,
        marches.abreast⟩
      rw [acted_cons, acted_cons, same, abreast.acts]
  | @act since' w' run' action allowed ih =>
    obtain ⟨here, uncalled⟩ := List.forall_mem_cons.mp uncalled
    obtain ⟨since, ⟨w, stack⟩, run, same, calls, abreast⟩ := ih uncalled
    obtain rfl := List.forall₂_nil_right_iff.mp abreast.stack
    refine ⟨⟨w, []⟩ :: since, _, .act run action allowed, ?_, ?_, abreast.act action⟩
    · rw [acted_cons, acted_cons, same]
      rfl
    · exact List.forall_mem_cons.mpr ⟨Occurrence.noConfusion, calls⟩

/-- A number that no callback has leads nowhere yet. -/
theorem Run.unissued (run : Run host (.fresh setup) past m) :
    (∀ f ∈ m.stack, Goal.callback m.world.issued ∉ f.goals) ∧
      ∀ b next, (m.world.loader.barrier b).onDone = some next → next.goal ≠ .callback m.world.issued := by
  have linked := linked_always run
  have unpassed : (passedOn (occurrences past)).count m.world.issued = 0 :=
    List.count_eq_zero.mpr fun passed => Nat.lt_irrefl _ (linked.issued _ passed)
  have balance := linked.callbacks m.world.issued
  rw [unpassed, held] at balance
  refine ⟨fun f member leads => ?_, fun b next waits leads => ?_⟩
  · have some := List.count_pos_iff.mpr (List.mem_flatMap_of_mem member leads)
    omega
  · have some := List.count_pos_iff.mpr (Loader.mem_goals.mpr ⟨b, next, waits, leads⟩)
    omega

/-- The same request with other identifiers. -/
def Action.asking (ids : List String) : Action → Action
  | .useModules _ tag body => .useModules ids tag body
  | .loadAsync _ tag body => .loadAsync ids tag body
  | action => action

variable {w : World} {site : Site} {action : Action} {later : Script} {below : List Frame}
  {referrer : Option Locator} {ids ids' : List String}

theorem Machine.run_one (w : World) (frame : Frame) (rest : List Frame) :
    Machine.run 1 ⟨w, frame :: rest⟩ = ⟨(frame.exec w).1, (frame.exec w).2 ++ rest⟩ := rfl

/-- From the moment on at which the request has been made the sessions are side by side. -/
theorem Run.sets_out (run : Run host (.fresh setup) past ⟨w, .script site (action :: later) :: below⟩)
    (requests : w.requests? site action = some (referrer, ids))
    (inserted : Inserted (w.loader.resolve · referrer = none) marks ids ids') :
    (Machine.run 1 ⟨w, .script site (action :: later) :: below⟩).Abreast w.loader.resolve w.issued marks
      (Machine.run 1 ⟨w, .script site (action.asking ids' :: later) :: below⟩) := by
  obtain ⟨stack, loads⟩ := run.unissued
  have others : List.Forall₂ (Frame.Padded w.loader.resolve w.issued marks) below below :=
    List.forall₂_same.mpr fun f member => .self (stack f (List.mem_cons_of_mem _ member))
  have padded : w.loader.barriers.Padded w.loader.resolve w.issued marks w.loader.barriers := by
    refine ⟨rfl, fun _ => rfl, fun i => ?_⟩
    cases waits : (w.loader.barriers.get i).onDone with
    | none => exact .none
    | some next => exact .some (.self (loads ⟨i⟩ next waits))
  cases action with
  | useModules ids tag body =>
    cases requests
    refine ⟨⟨.cons (.preload (.request (.host ?_ ?_) inserted)) (.cons (.plain rfl) (.cons (.plain rfl) others)),
      w.loader.barriers, rfl, padded⟩, Nat.lt_succ_self _, rfl⟩
    · exact fun _ => rfl
    · exact fun other => absurd rfl other
  | loadAsync ids tag body =>
    cases inside : site.context with
    | none => simp [World.requests?, inside] at requests
    | some c =>
      have exec (ids : List String) : Frame.exec w (.script site (.loadAsync ids tag body :: later)) =
          ({ w with issued := w.issued + 1 },
            [.request (some (w.loader.record c.record).locator) ids (.host (w.newCallback site tag body).2),
              .conclude site (.reply "async" (.text "returned")), .script site later]) := by
        simp only [Frame.exec, World.runScript, World.act, inside, World.endsScript, Bool.false_eq_true, if_false]
        rfl
      simp only [World.requests?, inside, Option.map_some, Option.some.injEq, Prod.mk.injEq] at requests
      obtain ⟨rfl, rfl⟩ := requests
      rw [Action.asking, Machine.run_one, Machine.run_one, exec, exec]
      refine ⟨⟨.cons (.request (.host ?_ ?_) inserted) (.cons (.plain rfl) (.cons (.plain rfl) others)),
        w.loader.barriers, rfl, padded⟩, Nat.lt_succ_self _, rfl⟩
      · exact fun _ => rfl
      · exact fun other => absurd rfl other
  | _ => cases requests

end

end ModuleLoader
