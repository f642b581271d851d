import ModuleLoader.Proofs.Ending.Standing
import ModuleLoader.Proofs.Listed.Completeness
import ModuleLoader.Proofs.Program
import Mathlib.Data.Prod.Lex

/-! Sessions that follow a program come to an end, as long as nothing is removed and no modules wait for each
other in a circle that names hide. Each step uses up some of what is to be executed; or some of what is to be
asked for; or a record comes on; or there is less left to do. -/
namespace ModuleLoader

open Loader (Sound Still Abides Leans Grows)

/-- The work of all frames and of all loads in progress. -/
noncomputable def Machine.effort (m : Machine) : Nat :=
  Frame.efforts m.world.loader.needsLoading m.world.loader.price m.stack +
    m.world.loader.due Continuation.effort

/-- What is ahead while nothing is used up, what weighs most first. -/
noncomputable def Machine.outlook (m : Machine) : Nat ×ₗ Nat ×ₗ Nat :=
  toLex (m.asking, toLex (m.world.loader.stages, m.effort))

/-- All that is ahead of a session until its next step. -/
noncomputable def Machine.prospect (past : List Machine) (m : Machine) : Nat ×ₗ Nat ×ₗ Nat ×ₗ Nat :=
  toLex (Scale.plain.machine past m, m.outlook)

section

variable {w w' : World} {frame : Frame} {frames rest : List Frame}

theorem Frame.efforts_cons (needs : Locator → Bool) (toll : Locator → Nat) (frame : Frame)
    (rest : List Frame) :
    Frame.efforts needs toll (frame :: rest) = frame.effort needs toll + Frame.efforts needs toll rest := by
  rw [efforts, List.map_cons, List.sum_cons, efforts]

theorem Frame.efforts_append (needs : Locator → Bool) (toll : Locator → Nat) (frames rest : List Frame) :
    Frame.efforts needs toll (frames ++ rest) =
      Frame.efforts needs toll frames + Frame.efforts needs toll rest := by
  rw [efforts, List.map_append, List.sum_append, efforts, efforts]

namespace Machine

theorem outlook_asked (less : Machine.asking ⟨w', frames ++ rest⟩ < Machine.asking ⟨w, frame :: rest⟩) :
    Machine.outlook ⟨w', frames ++ rest⟩ < Machine.outlook ⟨w, frame :: rest⟩ :=
  Prod.Lex.toLex_lt_toLex.mpr (.inl less)

/-- Where nobody asks for more, a record has come on, or there is less left to do. -/
theorem outlook_lighter (abides : w.loader.Abides w'.loader)
    (lighter : w.Lighter w.loader.price frame (w', frames))
    (no_more : Machine.asking ⟨w', frames ++ rest⟩ ≤ Machine.asking ⟨w, frame :: rest⟩) :
    Machine.outlook ⟨w', frames ++ rest⟩ < Machine.outlook ⟨w, frame :: rest⟩ := by
  refine Prod.Lex.toLex_lt_toLex'.mpr ⟨no_more, fun _ => ?_⟩
  obtain ⟨still, same⟩ | further := abides.still_or_stages
  · refine Prod.Lex.toLex_lt_toLex.mpr (.inr ⟨same, ?_⟩)
    have less := lighter.less
    simp only [effort, still.needsLoading, still.price, Frame.efforts_cons, Frame.efforts_append] at less ⊢
    omega
  · exact Prod.Lex.toLex_lt_toLex.mpr (.inl further)

theorem asking_le (names : w.Names frame frames) (leans : w.loader.Leans w'.loader)
    (grows : Grows w.loader w'.loader)
    (retrievals : retrieving (frames.filterMap Frame.token?) w' ≤ retrieving frame.token?.toList w) :
    Machine.asking ⟨w', frames ++ rest⟩ ≤ Machine.asking ⟨w, frame :: rest⟩ := by
  rw [asking_append, asking_cons]
  exact Nat.add_le_add (gaps_le names leans grows) (Nat.add_le_add_right retrievals _)

theorem asking_lt (names : w.Names frame frames) (leans : w.loader.Leans w'.loader)
    (grows : Grows w.loader w'.loader)
    (retrievals : retrieving (frames.filterMap Frame.token?) w' < retrieving frame.token?.toList w) :
    Machine.asking ⟨w', frames ++ rest⟩ < Machine.asking ⟨w, frame :: rest⟩ := by
  rw [asking_append, asking_cons]
  exact Nat.add_lt_add_of_le_of_lt (gaps_le names leans grows) (Nat.add_lt_add_right retrievals _)

/-- Retrievals that are started are made up for by what has come on. -/
theorem asking_lt_of_gap (names : w.Names frame frames) (leans : w.loader.Leans w'.loader)
    (grows : Grows w.loader w'.loader) {d : Locator} {n : Nat} (member : d ∈ frame.mentions)
    (less : w'.loader.gap d + n ≤ w.loader.gap d)
    (retrievals : retrieving (frames.filterMap Frame.token?) w' < retrieving frame.token?.toList w + n) :
    Machine.asking ⟨w', frames ++ rest⟩ < Machine.asking ⟨w, frame :: rest⟩ := by
  have fewer : ∑ d ∈ Machine.reach ⟨w', frames ++ rest⟩, w'.loader.gap d + n ≤ _ :=
    gaps_lt names leans grows member less
  rw [asking_append, asking_cons]
  omega

end Machine

end

section

variable {host : Action → Prop} {setup : Setup} {program left : List Action} {past : List Machine} {w : World}
  {frame : Frame} {rest : List Frame}

/-- A step that uses up nothing removes nothing, so that the loader only moves on. -/
theorem Run.grows (run : Run host (.fresh setup) past ⟨w, frame :: rest⟩)
    (free : Scale.plain.fee w frame = 0) : Grows w.loader (frame.exec w).1.loader := by
  refine ((frame.effect run.sound).orderly (fun locator removes => ?_) run.sound).2
  obtain ⟨site, key, later, rfl⟩ := Frame.of_removed removes
  cases free

/-- An entry of a load. -/
theorem Run.outlook_entries {locator : Locator} {later : List Locator} {b : BarrierId}
    (run : Run host (.fresh setup) past ⟨w, .entries (locator :: later) b :: rest⟩)
    (free : Scale.plain.fee w (.entries (locator :: later) b) = 0) :
    Machine.outlook ⟨(w.enter locator b).1, ((w.enter locator b).2 ++ [.entries later b]) ++ rest⟩ <
      Machine.outlook ⟨w, .entries (locator :: later) b :: rest⟩ := by
  have sound : Sound w.loader := run.sound
  have grows : Grows w.loader (w.enter locator b).1.loader := run.grows free
  have effect : Effect w (.entries (locator :: later) b) ((Frame.entries (locator :: later) b).occurrence w)
    (w.enter locator b).1 ((w.enter locator b).2 ++ [.entries later b]) := Frame.effect sound _
  have names : w.Names (.entries (locator :: later) b) ((w.enter locator b).2 ++ [.entries later b]) := by
    intro f member d named
    rcases List.mem_append.mp member with new | last
    · obtain rfl | ⟨token, rfl⟩ := w.enter_frames locator b f new <;> cases named
    · rw [List.mem_singleton.mp last] at named
      exact .inl (List.mem_cons_of_mem _ named)
  have silent (token : FetchToken) (starts : w.startedBy? locator b = some token)
      (atOnce : w.fetcher.policy.readsAtOnce = true) : w.fetcher.registrations token.resource = [] := by
    simpa [Scale.fee, Scale.plain, World.reading, World.reads?, atOnce, starts] using free
  have unstarted (none : w.startedBy? locator b = none) (token : FetchToken) :
      (Frame.entries (locator :: later) b).occurrence w ≠ .started token := by
    simp only [Frame.occurrence, none]
    exact Occurrence.noConfusion
  have coherent : w.loader.Coherent := coherent_always run
  obtain ⟨leans, new | ⟨none, landed⟩ | ⟨none, abides, barriers, frames⟩⟩ :=
    World.enter_standing sound coherent silent
  · refine Machine.outlook_asked
      (Machine.asking_lt_of_gap names leans grows (List.mem_cons_self ..) new (Nat.lt_succ_of_le ?_))
    cases starts : w.startedBy? locator b with
    | none => exact Nat.le_add_right_of_le (effect.retrieving_le (unstarted starts))
    | some token =>
      rw [show (Frame.entries (locator :: later) b).occurrence w = .started token by
        simp only [Frame.occurrence, starts]] at effect
      exact effect.retrieving_started
  · exact Machine.outlook_asked (Machine.asking_lt_of_gap names leans grows (List.mem_cons_self ..) landed
      (Nat.lt_succ_of_le (effect.retrieving_le (unstarted none))))
  · refine Machine.outlook_lighter abides ⟨names, ?_⟩
      (Machine.asking_le names leans grows (effect.retrieving_le (unstarted none)))
    dsimp only
    rw [Loader.due_same _ barriers]
    obtain frames | frames := frames <;> rw [frames] <;>
      simp only [Frame.efforts, List.nil_append, List.cons_append, List.map_cons, List.map_nil, List.sum_cons,
        List.sum_nil, Frame.effort] <;>
      omega

/-- Unless something is used up, each step comes nearer to the end. -/
theorem Run.outlook_lt (run : Run host (.fresh setup) past ⟨w, frame :: rest⟩)
    (free : Scale.plain.fee w frame = 0) (clear : ¬ w.loader.AliasCircle) :
    Machine.outlook ⟨(frame.exec w).1, (frame.exec w).2 ++ rest⟩ < Machine.outlook ⟨w, frame :: rest⟩ := by
  have sound := run.sound
  have effect := frame.effect sound
  have grows := run.grows free
  have bears := (founded_always run).stack frame (List.mem_cons_self ..)
  cases apart : frame.fetches with
  | false =>
    have inside (b : BarrierId) (goal : .barrier b ∈ frame.goals) : b.index < w.loader.barriers.size :=
      (linked_always run).inside (held_pos (.inl (List.mem_flatMap.mpr ⟨frame, List.mem_cons_self .., goal⟩)))
    have lighter := frame.lighter sound (Loader.toll_price clear) free apart inside
    have abides := run.deed.abides bears free apart
    refine Machine.outlook_lighter abides lighter
      (Machine.asking_le lighter.names abides.leans grows (effect.retrieving_le fun token starts => ?_))
    obtain ⟨locator, later, b, rfl, -⟩ := Frame.of_started starts
    cases apart
  | true =>
    cases frame with
    | entries locators b =>
      cases locators with
      | nil => cases apart
      | cons locator later => exact run.outlook_entries free
    | retrieved token =>
      have unnamed : w.loader.anonymous = none := by
        simpa [Scale.fee, Scale.plain] using free
      refine Machine.outlook_asked (Machine.asking_lt (.of_bare fun f member => ?_)
        (Loader.finishFetch_leans unnamed token) grows
        (effect.retrieving_lt (fun _ => Occurrence.noConfusion) (.inl (Option.some_ne_none _))))
      obtain ⟨waiter, -, rfl⟩ := List.mem_map.mp member
      rfl
    | completeRest site done =>
      have effect : Effect w (.completeRest site done) .none _ _ := effect
      have silent : w.reading (.completeRest site done) = 0 := by
        simpa only [Scale.fee, Scale.plain, Nat.one_mul] using free
      simp only [World.reading, World.reads?, World.taken?] at silent
      simp only [Frame.exec] at effect grows ⊢
      cases taken : w.takeNext? with
      | none =>
        simp only [taken] at effect ⊢
        exact Machine.outlook_lighter (.of_same rfl rfl) (.of_none rfl Nat.one_pos)
          (Machine.asking_le (.of_bare (List.forall_mem_nil _)) (.refl _) (.refl _)
            (effect.retrieving_le fun _ => Occurrence.noConfusion))
      | some next =>
        obtain ⟨w', token⟩ := next
        have takes : w.taken? (.completeRest site done) = some (w', token) := taken
        obtain ⟨loader, files⟩ := World.taken?_same takes
        simp only [taken, Option.map_some, Option.getD_some, List.length_eq_zero_iff] at effect grows silent ⊢
        have nothing : w'.fetcher.registrations token.resource = [] :=
          (Fetcher.registrations_of_files files _).trans silent
        have leans : w.loader.Leans (w'.evaluate token.resource).loader := by
          rw [World.evaluate, nothing, ← loader]
          exact .refl _
        exact Machine.outlook_asked (Machine.asking_lt (.of_bare (by simp [Frame.mentions])) leans grows
          (effect.retrieving_lt (fun _ => Occurrence.noConfusion) (.inr (by simp [Frame.token?]))))
    | _ => cases apart

/-- Each step comes nearer to the end. -/
theorem Plays.nearer (plays : Plays setup program left past ⟨w, frame :: rest⟩)
    (keeps : Keeps (setup.text program)) (clear : ¬ w.loader.AliasCircle) :
    Machine.prospect (⟨w, frame :: rest⟩ :: past) ⟨(frame.exec w).1, (frame.exec w).2 ++ rest⟩ <
      Machine.prospect past ⟨w, frame :: rest⟩ := by
  have spent := plays.run.spends (plays.kept keeps) .plain
  refine Prod.Lex.toLex_lt_toLex'.mpr ⟨Nat.le_of_add_right_le spent, fun same => ?_⟩
  refine plays.run.outlook_lt ?_ clear
  dsimp only at same
  omega

/-- Whatever is begun is done after finitely many steps, and what it was begun for goes on. -/
theorem Plays.returns {frames : List Frame} (keeps : Keeps (setup.text program))
    (clear : ∀ left past m, Plays setup program left past m → ¬ m.world.loader.AliasCircle)
    (plays : Plays setup program left past ⟨w, frames ++ rest⟩) :
    ∃ n past' w', Machine.run n ⟨w, frames ++ rest⟩ = ⟨w', rest⟩ ∧
      Plays setup program left past' ⟨w', rest⟩ := by
  induction here : Machine.prospect past ⟨w, frames ++ rest⟩ using WellFoundedLT.induction
    generalizing past w frames with
  | ind ahead further =>
    cases frames with
    | nil => exact ⟨0, past, w, rfl, plays⟩
    | cons frame frames =>
      have plays : Plays setup program left past ⟨w, frame :: (frames ++ rest)⟩ := plays
      have nearer := plays.nearer keeps (clear _ _ _ plays)
      have next := plays.work (Machine.step?_cons w frame (frames ++ rest))
      rw [← List.append_assoc] at next nearer
      obtain ⟨n, past', w', ends, after⟩ := further _ (here ▸ nearer) next rfl
      rw [List.append_assoc] at ends
      exact ⟨n + 1, past', w', ends, after⟩

/-- In a session that follows a program from which nothing is removed, no action is executed more often than
it is written down. If moreover no waiting modules ever depend on each other in a circle that closes only
through locators that are not their own, then all that is ever begun is done after finitely many steps, and
so is the whole session. -/
theorem program_executed_once_and_ended (setup : Setup) (program : List Action)
    (keeps : Keeps (setup.text program)) :
    (∀ left past m, Plays setup program left past m → (enacted past).Subperm (setup.text program)) ∧
    ((∀ left past m, Plays setup program left past m → ¬ m.world.loader.AliasCircle) →
      (∀ left past w frames rest, Plays setup program left past ⟨w, frames ++ rest⟩ →
        ∃ n w', Machine.run n ⟨w, frames ++ rest⟩ = ⟨w', rest⟩) ∧
      ∃ past w, Plays setup program [] past ⟨w, []⟩) := by
  refine ⟨fun left past m plays => plays.enacted_subperm keeps, fun clear => ⟨?_, ?_⟩⟩
  · intro left past w frames rest plays
    obtain ⟨n, -, w', ends, -⟩ := plays.returns keeps clear
    exact ⟨n, w', ends⟩
  · have goes (left : List Action) (past : List Machine) (w : World)
        (plays : Plays setup program left past ⟨w, []⟩) : ∃ past w, Plays setup program [] past ⟨w, []⟩ := by
      induction left generalizing past w with
      | nil => exact ⟨past, w, plays⟩
      | cons action left ih =>
        have begun : Plays setup program left _ ⟨w, [.script .outer [action]] ++ []⟩ := plays.act
        obtain ⟨-, past', w', -, after⟩ := begun.returns keeps clear
        exact ih past' w' after
    exact goes program [] _ .start

end

/-- The page asks for modules, two of which need each other, and then all that is queued is completed. -/
def entangledProgram : List Action :=
  [.useModules ["m", "c"] "page" [.value (.note "called")], .completeAll]

theorem program_executed_once_and_ended_entangled :
    (∃ past w, Plays .entangled entangledProgram [] past ⟨w, []⟩ ∧
      (enacted past).Subperm (Setup.entangled.text entangledProgram)) ∧
    ∀ left past w frames rest, Plays .entangled entangledProgram left past ⟨w, frames ++ rest⟩ →
      ∃ n w', Machine.run n ⟨w, frames ++ rest⟩ = ⟨w', rest⟩ := by
  have keeps : Keeps (Setup.entangled.text entangledProgram) := by
    intro key later member
    have none : (Setup.entangled.text entangledProgram).all (fun actions => !actions.removes) = true := rfl
    cases List.all_eq_true.mp none _ member
  obtain ⟨once, ends⟩ := program_executed_once_and_ended .entangled entangledProgram keeps
  -- Locators stand for records that were made for them, since each file holds one module without a name.
  obtain ⟨returns, past, w, plays⟩ := ends fun left past m plays => by
    have run : Run (·.isPlain = true) (.fresh .entangled) past m := plays.run.mono (by decide)
    have session := session_always Setup.entangled_listed (.inl rfl) run
    exact Loader.Proper.clear session.plain.tabular.own
  exact ⟨⟨past, w, plays, once _ _ _ plays⟩, returns⟩

end ModuleLoader
