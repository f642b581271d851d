import ModuleLoader.Proofs.Sharing
import ModuleLoader.Proofs.Stock.Exec

/-! Sessions that follow a program. No action of the program is executed more often than it is written down,
as long as nothing is removed: a resource is read once, a module is compiled once, and so on. -/
namespace ModuleLoader

open Loader (Sound)

/-- A session takes the steps of a program one after the other, each when the work of the one before is done;
`left` is what has still to be taken. -/
inductive Plays (setup : Setup) (program : List Action) :
    (left : List Action) → List Machine → Machine → Prop where
  | start : Plays setup program program [] (.fresh setup)
  | work {left : List Action} {past : List Machine} {m next : Machine}
      (plays : Plays setup program left past m) (stepped : m.step? = some next) :
      Plays setup program left (m :: past) next
  | act {left : List Action} {past : List Machine} {w : World} {action : Action}
      (plays : Plays setup program (action :: left) past ⟨w, []⟩) :
      Plays setup program left (⟨w, []⟩ :: past) ⟨w, [.script .outer [action]]⟩

/-- The list of actions that the next step takes an action from. -/
def Machine.enacts? (m : Machine) : Option Script :=
  match m.stack with
  | .script _ (action :: rest) :: _ => some (action :: rest)
  | _ => none

/-- The actions that have been executed, each with what stood behind it, latest first. -/
def enacted (past : List Machine) : List Script := past.filterMap Machine.enacts?

/-- The files of a resource have not been read, and may still be. -/
def unread (past : List Machine) (m : Machine) (p : PhysicalId) : Bool :=
  (retrievals (occurrences past) p).isEmpty || m.world.inHand.any (·.resource = p)

section

variable {setup : Setup} {program left : List Action} {past : List Machine} {m : Machine}

theorem Plays.left_subset (plays : Plays setup program left past m) : left ⊆ program := by
  induction plays with
  | start => exact fun _ => id
  | work _ _ ih => exact ih
  | act _ ih => exact fun _ member => ih (List.mem_cons_of_mem _ member)

theorem Plays.run (plays : Plays setup program left past m) :
    Run (· ∈ program) (.fresh setup) past m := by
  induction plays with
  | start => exact .start
  | work _ stepped run => exact .work run stepped
  | act plays run => exact .act run _ (plays.left_subset (List.mem_cons_self ..))

/-! What has been read is not read again. -/

/-- A frame that reads a resource is about to finish its retrieval, which has been started just now or was in
hand. -/
theorem Frame.reads {w : World} (sound : Sound w.loader) {frame : Frame} {p : PhysicalId}
    (reads : w.reads? frame = some p) :
    ∃ token frames, (frame.exec w).2 = .retrieved token :: frames ∧ token.resource = p ∧
      (frame.occurrence w = .started token ∨ token ∈ w.inHand) := by
  have queued {w' : World} {token : FetchToken} (taken : w.Takes w' token) : token ∈ w.inHand :=
    taken.hands.subset (List.mem_cons_self ..)
  have finishes (site : Site) (action : String) (rest : Script)
      {taken : Option (World × FetchToken)}
      (takes : ∀ w' token, taken = some (w', token) → w.Takes w' token)
      (reads : (if w.fetcher.policy = .queued then taken else none).map (fun t => t.2.resource) = some p) :
      ∃ token frames, (w.completeTaken site action taken).2 ++ [.script site rest] =
        .retrieved token :: frames ∧ token.resource = p ∧ token ∈ w.inHand := by
    split at reads
    · rename_i policy
      cases taken with
      | none => cases reads
      | some next =>
        obtain ⟨w', token⟩ := next
        refine ⟨token, [.conclude site (.reply action (.flag true)), .script site rest], ?_,
          Option.some.inj reads, queued (takes w' token rfl)⟩
        simp only [World.completeTaken, policy, ne_eq, not_true_eq_false, if_false]
        rfl
    · cases reads
  cases frame with
  | entries locators b =>
    cases locators with
    | nil => cases reads
    | cons locator later =>
      have enters := World.enters sound locator b
      simp only [World.reads?, Frame.exec, Frame.occurrence] at reads ⊢
      generalize w.startedBy? locator b = start, w.enter locator b = entered at *
      split at reads
      · rename_i atOnce
        cases enters with
        | @started token =>
          refine ⟨token, [.entries later b], ?_, Option.some.inj reads, .inl rfl⟩
          revert atOnce
          unfold World.retrieve
          cases w.fetcher.policy <;> intro atOnce <;> first | rfl | cases atOnce
        | _ => cases reads
      · cases reads
  | script site actions =>
    cases actions with
    | nil => cases reads
    | cons action rest =>
      cases action with
      | complete resource =>
        obtain ⟨token, frames, top, here, held⟩ := finishes site _ rest
          (fun _ _ taken => World.takeQueued?_spec taken) reads
        exact ⟨token, frames, top, here, .inr held⟩
      | completeNext =>
        obtain ⟨token, frames, top, here, held⟩ := finishes site _ rest
          (fun _ _ taken => World.takeNext?_spec taken) reads
        exact ⟨token, frames, top, here, .inr held⟩
      | _ => cases reads
  | completeRest site done =>
    simp only [World.reads?, World.taken?, Frame.exec] at reads ⊢
    cases taken : w.takeNext? with
    | none =>
      rw [taken] at reads
      cases reads
    | some next =>
      obtain ⟨w', token⟩ := next
      rw [taken] at reads
      exact ⟨token, _, rfl, Option.some.inj reads, .inr (queued (World.takeNext?_spec taken))⟩
  | _ => cases reads

theorem unread_iff {p : PhysicalId} : unread past m p = true ↔
    retrievals (occurrences past) p = [] ∨ ∃ token ∈ m.world.inHand, token.resource = p := by
  simp only [unread, Bool.or_eq_true, List.isEmpty_iff, List.any_eq_true, decide_eq_true_eq]

/-- Only a retrieval that is started comes into the hands of the fetcher. -/
theorem Effect.inHand {w w' : World} {frame : Frame} {frames : List Frame} {o : Occurrence}
    (effect : Effect w frame o w' frames) {token : FetchToken} (held : token ∈ w'.inHand) :
    token ∈ w.inHand ∨ o = .started token := by
  cases effect with
  | calm tame ledger barriers orderly goals tokens =>
    exact .inl (tokens.subset (List.mem_append_right _ held))
  | removed locator tame loader same => exact .inl (same ▸ held)
  | passed wanted calm => exact .inl (calm.inHand ▸ held)
  | called number calm => exact .inl (calm.inHand ▸ held)
  | opened same nonempty tame ledger barriers orderly inHand => exact .inl (inHand ▸ held)
  | joined waiter waiters tame flying ledger barriers orderly inHand => exact .inl (inHand ▸ held)
  | started waiter started tame same grounded stale ledger barriers orderly goals tokens =>
    rcases List.mem_cons.mp (tokens.subset (List.mem_append_right _ held)) with rfl | before
    · exact .inr rfl
    · exact .inl before
  | arrived b tame ledger counted orderly inHand => exact .inl (inHand ▸ held)
  | finished token tame same ledger barriers orderly landed inHand => exact .inl (inHand ▸ held)

variable {host : Action → Prop} {w : World} {frame : Frame} {rest : List Frame}

theorem Run.consumes (run : Run host (.fresh setup) past ⟨w, frame :: rest⟩)
    (kept : ∀ locator, .removed locator ∉ occurrences past) :
    Consumes (unread past ⟨w, frame :: rest⟩)
      (unread (⟨w, frame :: rest⟩ :: past) ⟨(frame.exec w).1, (frame.exec w).2 ++ rest⟩)
      (w.reads? frame) := by
  have effect := frame.effect run.sound
  have never {token : FetchToken} (starts : frame.occurrence w = .started token) :
      retrievals (occurrences past) token.resource = [] :=
    ((single_retrieval run starts).2.2.2 kept).retrievals
  refine ⟨fun p later => ?_, fun p reads => ?_⟩
  · rw [unread_iff] at later ⊢
    obtain none | ⟨token, held, rfl⟩ := later
    · refine .inl (List.eq_nil_iff_forall_not_mem.mpr fun token earlier => ?_)
      obtain ⟨started, here⟩ := mem_retrievals.mp earlier
      have later := mem_retrievals.mpr ⟨List.mem_cons_of_mem (frame.occurrence w) started, here⟩
      exact List.eq_nil_iff_forall_not_mem.mp none token later
    · obtain before | starts := effect.inHand held
      · exact .inr ⟨token, before, rfl⟩
      · exact .inl (never starts)
  · obtain ⟨token, frames, top, rfl, origin⟩ := Frame.reads run.sound reads
    have tracked := tracked_always (run.work (Machine.step?_cons w frame rest))
    -- The retrieval is about to be finished, so nobody else holds one of the same resource.
    have held : token ∈ ((frame.exec w).2 ++ rest).filterMap Frame.token? := by
      rw [top]
      exact List.mem_cons_self ..
    have underWay := tracked.outstanding.subset (List.mem_append_left _ held)
    refine ⟨unread_iff.mpr ?_, Bool.eq_false_iff.mpr fun later => ?_⟩
    · obtain starts | held := origin
      · exact .inl (never starts)
      · exact .inr ⟨token, held, rfl⟩
    · obtain none | ⟨other, there, here⟩ := unread_iff.mp later
      · obtain ⟨between, before, split, -⟩ := tracked.latest token underWay
        have started : .started token ∈ occurrences (⟨w, frame :: rest⟩ :: past) :=
          split ▸ List.mem_append_right _ (List.mem_cons_self ..)
        exact List.eq_nil_iff_forall_not_mem.mp none token (mem_retrievals.mpr ⟨started, rfl⟩)
      · obtain ⟨same, perm, sublist⟩ := tracked.outstanding
        have single := (perm.map FetchToken.resource).nodup_iff.mp
          (tracked.single.sublist (sublist.map FetchToken.resource))
        rw [Machine.tokens, List.map_append, List.nodup_append] at single
        exact single.2.2 _ (List.mem_map_of_mem held) _ (List.mem_map_of_mem there) here.symm

/-! What has been executed, and what is still to be. -/

/-- What is still to be executed of a session, beside the steps that the host has not taken. -/
def Scale.machine (σ : Scale) (past : List Machine) (m : Machine) : Nat :=
  σ.frames m.stack + σ.world (unread past m) m.world

/-- Each step uses up what it executes, and brings nothing new. -/
theorem Run.spends (run : Run host (.fresh setup) past ⟨w, frame :: rest⟩)
    (kept : ∀ locator, .removed locator ∉ occurrences past) (σ : Scale) :
    σ.machine (⟨w, frame :: rest⟩ :: past) ⟨(frame.exec w).1, (frame.exec w).2 ++ rest⟩ + σ.fee w frame ≤
      σ.machine past ⟨w, frame :: rest⟩ := by
  have executed := σ.exec (w := w) run.sound frame (run.consumes kept)
  simp only [Scale.machine, Scale.frames_cons, Scale.frames_append]
  omega

theorem Scale.fee_enacts (σ : Scale) (w : World) (frame : Frame) (rest : List Frame) :
    ((Machine.enacts? ⟨w, frame :: rest⟩).map σ.step).getD 0 ≤ σ.fee w frame := by
  cases frame with
  | script site actions => cases actions <;> exact Nat.le_refl _
  | _ => exact Nat.zero_le _

/-- A session starts with its files to be read. -/
theorem Scale.world_start (σ : Scale) (unread : PhysicalId → Bool) :
    σ.world unread (World.start setup) ≤
      3 * σ.unit * setup.config.preloads.length + (setup.files.map fun file => σ.draft file.2).sum := by
  have files (table : List (PhysicalId × Draft)) (w : World) :
      σ.files unread (table.foldl World.readFile w).fetcher.files ≤
        σ.files unread w.fetcher.files + (table.map fun file => σ.draft file.2).sum := by
    induction table generalizing w with
    | nil => exact Nat.le_refl _
    | cons file table ih =>
      have first := σ.files_added (⟨fun _ => id, nofun⟩ : Consumes unread unread none)
        w.fetcher.files file.1 (w.evalDraft .outer file.2).2
      have cost : σ.registration (w.evalDraft .outer file.2).2 = σ.draft file.2 := σ.eval_draft _ _ _
      have read : (w.readFile file).fetcher.files =
        w.fetcher.files ++ [(file.1, (w.evalDraft .outer file.2).2)] := rfl
      have others := ih (w.readFile file)
      rw [read] at others
      simp only [List.foldl_cons, List.map_cons, List.sum_cons]
      omega
  have fresh : σ.loader (World.start setup).loader = 3 * σ.unit * setup.config.preloads.length := by
    rw [World.start_bare]
    exact Nat.zero_add _
  rw [Scale.world, fresh, World.start_eq]
  exact Nat.add_le_add_left (Nat.le_trans (files setup.files _) (Nat.le_of_eq (Nat.zero_add _))) _

/-- All that has been executed, and all that is still to be executed, was written down. -/
theorem Plays.conserved (plays : Plays setup program left past m)
    (kept : ∀ locator, .removed locator ∉ occurrences past) (σ : Scale) :
    ((enacted past).map σ.step).sum + σ.machine past m + (left.map fun action => σ.script [action]).sum ≤
      3 * σ.unit * setup.config.preloads.length + (setup.files.map fun file => σ.draft file.2).sum +
        (program.map fun action => σ.script [action]).sum := by
  induction plays with
  | start =>
    refine Nat.add_le_add_right (Nat.le_trans (Nat.le_of_eq ?_) (σ.world_start (unread [] (.fresh setup)))) _
    exact (Nat.zero_add _).trans (Nat.zero_add _)
  | @work left past m next plays stepped ih =>
    have before : ∀ locator, .removed locator ∉ occurrences past :=
      fun locator removed => kept locator (List.mem_cons_of_mem _ removed)
    have earlier := ih before
    obtain ⟨w, stack⟩ := m
    cases stack with
    | nil => cases stepped
    | cons frame rest =>
      obtain rfl : next = ⟨(frame.exec w).1, (frame.exec w).2 ++ rest⟩ := (Option.some.inj stepped).symm
      have spent := plays.run.spends before σ
      have paid := σ.fee_enacts w frame rest
      have latest : ((enacted (⟨w, frame :: rest⟩ :: past)).map σ.step).sum =
          ((Machine.enacts? ⟨w, frame :: rest⟩).map σ.step).getD 0 + ((enacted past).map σ.step).sum := by
        rw [enacted, List.filterMap_cons]
        cases Machine.enacts? ⟨w, frame :: rest⟩ with
        | none => exact (Nat.zero_add _).symm
        | some actions => exact List.sum_cons
      omega
  | @act left past w action plays ih =>
    have earlier := ih fun locator removed => kept locator (List.mem_cons_of_mem _ removed)
    have taken : σ.machine (⟨w, []⟩ :: past) ⟨w, [.script .outer [action]]⟩ =
        σ.script [action] + σ.machine past ⟨w, []⟩ := by
      simp only [Scale.machine, Scale.frames_cons, Scale.frames_nil, Nat.add_zero, Nat.zero_add]
      rfl
    have same : enacted (⟨w, []⟩ :: past) = enacted past := rfl
    simp only [List.map_cons, List.sum_cons] at earlier
    rw [taken, same]
    omega

/-- Is the first of some actions one that takes something out of the registry? -/
def Script.removes (actions : Script) : Bool :=
  match actions.head? with
  | some (.remove _) => true
  | _ => false

/-- A program in whose text no action takes anything out of the registry. -/
def Keeps (text : List Script) : Prop := ∀ key later, .remove key :: later ∉ text

theorem counted_text (p : Script → Bool) :
    (setup.files.map fun file => (Scale.counting p).draft file.2).sum +
        (program.map fun action => (Scale.counting p).script [action]).sum =
      (setup.text program).countP p := by
  simp only [Setup.text, List.countP_append, List.countP_flatMap, Scale.counting_draft, Scale.counting_script]
  rfl

/-- The past and the step to be taken next have executed nothing that is not in the text. -/
theorem Plays.counted (plays : Plays setup program left past m)
    (kept : ∀ locator, .removed locator ∉ occurrences past) (p : Script → Bool) :
    (enacted past).countP p + (m.enacts?.toList).countP p ≤ (setup.text program).countP p := by
  have conserved := plays.conserved kept (.counting p)
  have weighed (scripts : List Script) : (scripts.map (Scale.counting p).step).sum = scripts.countP p := by
    induction scripts with
    | nil => rfl
    | cons first scripts ih =>
      rw [List.map_cons, List.sum_cons, ih, List.countP_cons, Nat.add_comm]
      rfl
  have free : 3 * (Scale.counting p).unit * setup.config.preloads.length = 0 := by
    rw [show (Scale.counting p).unit = 0 from rfl, Nat.mul_zero, Nat.zero_mul]
  have next : (m.enacts?.toList).countP p ≤ (Scale.counting p).machine past m := by
    rw [← weighed]
    obtain ⟨w, stack⟩ := m
    cases stack with
    | nil => exact Nat.zero_le _
    | cons frame rest =>
      cases frame with
      | script site actions =>
        cases actions with
        | nil => exact Nat.zero_le _
        | cons action later =>
          simp only [Scale.machine, Scale.frames_cons, Scale.frame, Scale.script, Machine.enacts?,
            Option.toList, List.map_cons, List.map_nil, List.sum_cons, List.sum_nil]
          omega
      | _ => exact Nat.zero_le _
  rw [weighed, free, Nat.zero_add, counted_text] at conserved
  omega

/-- Nothing is removed if nothing in the text says so. -/
theorem Plays.kept (plays : Plays setup program left past m) (keeps : Keeps (setup.text program))
    (locator : Locator) : .removed locator ∉ occurrences past := by
  have none : (setup.text program).countP Script.removes = 0 := by
    refine List.countP_eq_zero.mpr fun actions member => ?_
    cases actions with
    | nil => exact Bool.false_ne_true
    | cons action later =>
      cases action with
      | remove key => exact absurd member (keeps key later)
      | _ => exact Bool.false_ne_true
  induction plays generalizing locator with
  | start => exact List.not_mem_nil
  | @work left past m next plays stepped ih =>
    refine fun member => (List.mem_cons.mp member).elim (fun removed => ?_) (ih locator)
    have counted := plays.counted ih Script.removes
    obtain ⟨w, stack⟩ := m
    cases stack with
    | nil => cases stepped
    | cons frame rest =>
      obtain ⟨site, key, later, rfl⟩ := Frame.of_removed removed.symm
      have here : (Machine.enacts?
        ⟨w, .script site (.remove key :: later) :: rest⟩).toList.countP Script.removes = 1 := rfl
      omega
  | act plays ih =>
    exact fun member => (List.mem_cons.mp member).elim (fun removed => by cases removed) (ih locator)

/-- No action is executed more often than it is written down. -/
theorem Plays.enacted_subperm (plays : Plays setup program left past m) (keeps : Keeps (setup.text program)) :
    (enacted past).Subperm (setup.text program) := by
  classical
  refine List.subperm_ext_iff.mpr fun actions _ => ?_
  exact Nat.le_trans (Nat.le_add_right _ _) (plays.counted (plays.kept keeps) (· == actions))

end

end ModuleLoader
