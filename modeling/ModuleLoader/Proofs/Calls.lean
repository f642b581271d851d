import ModuleLoader.Proofs.Effects.Deeds

/-! Calls. What a module is asked for is worked off above everything that was to be done before, and the call
has returned when just that is left. Whoever asks for the interface of a module is answered with what the
module exports at the return, unless nothing has been saved for it and no patch waits for it. -/
namespace ModuleLoader

/-- There is work to be done before what has been left below. -/
def Machine.Over (below : List Frame) (m : Machine) : Prop := ∃ top, top ≠ [] ∧ m.stack = top ++ below

/-- A call that was made at a moment has just returned. -/
structure Returned (past : List Machine) (called : Machine) (below : List Frame) (m : Machine) : Prop where
  left : m.stack = below
  since : ∃ later earlier, past = later ++ called :: earlier ∧ ∀ moment ∈ later, moment.Over below

theorem Machine.Over.ne {below : List Frame} {m : Machine} (atop : m.Over below) : m.stack ≠ below := by
  obtain ⟨top, some, stack⟩ := atop
  rw [stack]
  exact fun same => some (List.append_left_eq_self.mp same)

theorem Returned.passed {past : List Machine} {called m : Machine} {below : List Frame}
    (returned : Returned past called below m) : called ∈ past := by
  obtain ⟨later, earlier, rfl, -⟩ := returned.since
  exact List.mem_append_right _ (List.mem_cons_self ..)

/-- The answer that is due to whoever asks for the interface of a module, where it can be compiled and where
it cannot. -/
def Machine.Tells (m : Machine) (r : RecordId) (can : Bool) : Prop :=
  if can then .compiling ≤ m.world.loader.status r ∧ m.world.answer = (m.world.loader.record r).exports
  else m.world.answer = none

/-- A call that compiles a module, down to its return. -/
inductive InCall (r : RecordId) (can : Bool) (below : List Frame) (m : Machine) : Prop where
  | asked (stack : m.stack = .compile r :: below) (able : m.world.loader.canCompile r = can)
  | running (top : List Frame) (stack : m.stack = top ++ .finishCompile r :: below) (able : can = true)
  | ending (top : List Frame) (stack : m.stack = top ++ .answerExports r :: below)
      (compiled : m.world.loader.status r = .compiled) (able : can = true)
  | answered (stack : m.stack = below) (tells : m.Tells r can)

/-- Either a module is answered for at once, or what is left to be done ends with the end of its
compilation. -/
theorem World.compile_answers (w : World) (r : RecordId) (rest : List Frame) :
    InCall r (w.loader.canCompile r) rest ⟨(w.compile r).1, (w.compile r).2 ++ rest⟩ := by
  have ready (late : .compiling ≤ w.loader.status r) : InCall r (w.loader.canCompile r) rest
      ⟨{ w with answer := (w.loader.record r).exports }, rest⟩ := by
    refine .answered rfl ?_
    rw [Loader.canCompile_of_saved (Status.le_trans (by decide) late)]
    exact ⟨late, rfl⟩
  unfold compile
  split
  · rename_i compiling
    exact ready (compiling ▸ Status.le_refl _)
  · rename_i compiled
    exact ready (compiled ▸ by decide)
  · split
    · rename_i can
      dsimp only
      split
      · exact .running [.runFactory r _, .replaceInterface r, .leaveFactory] rfl can
      · exact .running [] rfl can
      · exact .running [] rfl can
    · rename_i cannot
      refine .answered rfl ?_
      rw [Bool.eq_false_iff.mpr cannot]
      rfl

section

variable {host : Action → Prop} {setup : Setup} {past : List Machine} {m : Machine} {r : RecordId} {can : Bool}
  {below : List Frame}

/-- What the first step of a call brings about, and each later one keeps, holds when it has returned. -/
theorem Run.during {P : Machine → Prop} {called : Machine} {later earlier : List Machine}
    (run : Run host (.fresh setup) past m) (split : past = later ++ called :: earlier)
    (busy : called.stack ≠ []) (atop : ∀ moment ∈ later, moment.Over below)
    (first : ∀ next, called.step? = some next → P next)
    (worked : ∀ past w frame rest, Run host (.fresh setup) past ⟨w, frame :: rest⟩ →
      Machine.Over below ⟨w, frame :: rest⟩ → P ⟨w, frame :: rest⟩ →
      P ⟨(frame.exec w).1, (frame.exec w).2 ++ rest⟩) : P m := by
  induction run generalizing later with
  | start => simp at split
  | @work past before next run stepped ih =>
    cases later with
    | nil =>
      obtain ⟨rfl, -⟩ := List.cons.inj split
      exact first next stepped
    | cons moment later =>
      have tail : past = later ++ called :: earlier := (List.cons.inj split).2
      obtain rfl := (List.cons.inj split).1
      have here := ih tail fun moment member => atop moment (List.mem_cons_of_mem _ member)
      obtain ⟨w, stack⟩ := before
      cases stack with
      | nil => cases stepped
      | cons frame rest =>
        cases Option.some.inj stepped
        exact worked _ w frame rest run (atop _ (List.mem_cons_self ..)) here
  | @act past w run action allowed =>
    cases later with
    | nil =>
      obtain ⟨rfl, -⟩ := List.cons.inj split
      exact absurd rfl busy
    | cons moment later =>
      obtain ⟨rfl, -⟩ := List.cons.inj split
      obtain ⟨top, some, stack⟩ := atop _ (List.mem_cons_self ..)
      exact absurd (List.append_eq_nil_iff.mp stack.symm).1 some

/-- The next step puts a frame on the stack, right above what is to be done after it. -/
inductive Machine.Leaves : Machine → Frame → List Frame → Prop where
  | work {w : World} {frame f : Frame} {rest first last : List Frame}
      (frames : (frame.exec w).2 = first ++ f :: last) : Leaves ⟨w, frame :: rest⟩ f (last ++ rest)
  | act (w : World) (action : Action) : Leaves ⟨w, []⟩ (.script .outer [action]) []

/-- What is to be done has been put on the stack at some moment, and has waited for other work since. -/
theorem Run.opened {f : Frame} (run : Run host (.fresh setup) past m) (top : List Frame)
    (stack : m.stack = top ++ f :: below) :
    ∃ later opened earlier, past = later ++ opened :: earlier ∧
      (∀ moment ∈ later, moment.Over (f :: below)) ∧ opened.Leaves f below := by
  refine run.invariant (P := fun past m => ∀ top, m.stack = top ++ f :: below →
    ∃ later opened earlier, past = later ++ opened :: earlier ∧
      (∀ moment ∈ later, moment.Over (f :: below)) ∧ opened.Leaves f below) ?_ ?_ ?_ top stack
  · intro top stack
    simp [Machine.fresh] at stack
  · intro past w frame rest _ before top stack
    have under (above : List Frame) (waits : rest = above ++ f :: below) :
        ∃ later opened earlier, ⟨w, frame :: rest⟩ :: past = later ++ opened :: earlier ∧
          (∀ moment ∈ later, moment.Over (f :: below)) ∧ opened.Leaves f below := by
      obtain ⟨later, opened, earlier, rfl, atop, leaves⟩ := before (frame :: above) (congrArg _ waits)
      have now : Machine.Over (f :: below) ⟨w, frame :: rest⟩ :=
        ⟨frame :: above, List.cons_ne_nil _ _, congrArg _ waits⟩
      exact ⟨_ :: later, opened, earlier, rfl, List.forall_mem_cons.mpr ⟨now, atop⟩, leaves⟩
    obtain ⟨above, -, waits⟩ | ⟨made, frames, stack⟩ := List.append_eq_append_iff.mp stack
    · exact under _ waits
    · cases made with
      | nil => exact under [] stack.symm
      | cons g last =>
        obtain ⟨rfl, rfl⟩ := List.cons.inj stack
        exact ⟨[], _, past, rfl, List.forall_mem_nil _, .work frames⟩
  · intro past w action _ _ _ top stack
    cases top with
    | nil =>
      cases stack
      exact ⟨[], _, past, rfl, List.forall_mem_nil _, .act w action⟩
    | cons g top => simp at stack

/-- A call that compiles a module goes on to its return. -/
theorem InCall.next {w : World} {frame : Frame} {rest : List Frame}
    (run : Run host (.fresh setup) past ⟨w, frame :: rest⟩) (atop : Machine.Over below ⟨w, frame :: rest⟩)
    (call : InCall r can below ⟨w, frame :: rest⟩) :
    InCall r can below ⟨(frame.exec w).1, (frame.exec w).2 ++ rest⟩ := by
  have bears := (founded_always run).stack frame (List.mem_cons_self ..)
  cases call with
  | asked stack able =>
    cases stack
    exact able ▸ w.compile_answers r below
  | running top stack able =>
    cases top with
    | nil =>
      cases stack
      refine .ending ((w.loader.record r).patchKeys.map (Frame.applyPatches · r)) ?_ ?_ able
      · exact List.append_assoc _ [_] _
      · have compiling : .compiling ≤ w.loader.status r := bears (r, .compiling) (List.mem_singleton_self _)
        have known := Status.ne_unknown_of_le (a := .compiling) (by decide) compiling
        exact (w.loader.status_setStatus r r .compiled).trans (if_pos ⟨rfl, Loader.index_lt_of_known known⟩)
    | cons first top =>
      cases stack
      exact .running ((frame.exec w).2 ++ top) (List.append_assoc ..).symm able
  | ending top stack compiled able =>
    cases top with
    | nil =>
      cases stack
      refine .answered rfl ?_
      rw [able]
      exact ⟨(show w.loader.status r = .compiled from compiled) ▸ by decide, rfl⟩
    | cons first top =>
      cases stack
      exact .ending ((frame.exec w).2 ++ top) (List.append_assoc ..).symm
        (Status.eq_compiled (compiled ▸ run.turn.rises r)) able
  | answered stack => exact absurd stack atop.ne

end

/-- A moment at which somebody asks for the interface of a module, and what is left to be done when the answer
is there. -/
inductive Machine.Asks : Machine → RecordId → List Frame → Prop where
  | get {w : World} {site : Site} {c : Context} {id : String} {into key : Option String} {later : Script}
      {rest : List Frame} {locator : Locator} {r : RecordId} (inside : site.context = some c)
      (meant : w.loader.resolve id (some (w.loader.record c.record).locator) = some locator)
      (held : w.loader.entry? locator = some r) :
      Asks ⟨w, .script site (.get id into key :: later) :: rest⟩ r
        (.conclude site (.got into key) :: .script site later :: rest)
  | giveBack {w : World} {site : Site} {c : Context} {id : String} {later : Script} {rest : List Frame}
      {locator : Locator} {r : RecordId} (inside : site.context = some c)
      (meant : w.loader.resolve id (some (w.loader.record c.record).locator) = some locator)
      (held : w.loader.entry? locator = some r) :
      Asks ⟨w, .script site (.giveBackDependency id :: later) :: rest⟩ r rest
  | compile {w : World} {site : Site} {ref : RecordRef} {into : Option String} {later : Script}
      {rest : List Frame} {r : RecordId} (found : w.find? site ref = some r) :
      Asks ⟨w, .script site (.compile ref into :: later) :: rest⟩ r
        (.conclude site (.compiled into) :: .script site later :: rest)
  | position {w : World} {locator : Locator} {locators : List (Option Locator)}
      {interfaces : List (Option Value)} {receiver : Receiver} {rest : List Frame} {r : RecordId}
      (held : w.loader.entry? locator = some r) :
      Asks ⟨w, .gather (some locator :: locators) interfaces receiver :: rest⟩ r
        (.collect locators interfaces receiver :: rest)

section

variable {host : Action → Prop} {setup : Setup} {past : List Machine} {m : Machine} {r : RecordId}
  {below : List Frame}

/-- A dependency that is compiling or compiled is answered for at once; any other is compiled. -/
theorem World.getDependency_call {w : World} {c : Context} {id : String} {locator : Locator}
    (meant : w.loader.resolve id (some (w.loader.record c.record).locator) = some locator)
    (held : w.loader.entry? locator = some r) (below : List Frame) :
    InCall r (w.loader.canCompile r) below ⟨(w.getDependency c id).1, (w.getDependency c id).2 ++ below⟩ := by
  have ready (late : .compiling ≤ w.loader.status r) : InCall r (w.loader.canCompile r) below
      ⟨{ w with answer := (w.loader.record r).exports }, below⟩ := by
    refine .answered rfl ?_
    rw [Loader.canCompile_of_saved (Status.le_trans (by decide) late)]
    exact ⟨late, rfl⟩
  unfold getDependency
  simp only [meant, held]
  split
  · rename_i compiling
    exact ready (compiling ▸ Status.le_refl _)
  · rename_i compiled
    exact ready (compiled ▸ by decide)
  · refine .asked rfl ?_
    have same : ((w.loader.setInitiator r c.record).record r).status = (w.loader.record r).status ∧
        ((w.loader.setInitiator r c.record).record r).patchKeys = (w.loader.record r).patchKeys := by
      rw [Loader.setInitiator, Loader.record_updateRecord]
      split <;> exact ⟨rfl, rfl⟩
    simp only [Loader.canCompile, Loader.hasPatches, Loader.status, same.1, same.2]
    rfl

theorem Machine.Asks.first {called next : Machine} (asks : called.Asks r below)
    (stepped : called.step? = some next) : InCall r (called.world.loader.canCompile r) below next := by
  cases asks with
  | @get w site c id into key later rest locator r inside meant held =>
    have exec : Frame.exec w (.script site (.get id into key :: later)) = ((w.getDependency c id).1,
        (w.getDependency c id).2 ++ [.conclude site (.got into key)] ++ [.script site later]) := by
      simp only [Frame.exec, World.runScript, World.act, inside, World.endsScript, Bool.false_eq_true, if_false]
    cases (Machine.step?_cons ..).symm.trans stepped
    simp only [exec, List.append_assoc]
    exact World.getDependency_call meant held _
  | @giveBack w site c id later rest locator r inside meant held =>
    have exec : Frame.exec w (.script site (.giveBackDependency id :: later)) = w.getDependency c id := by
      simp only [Frame.exec, World.runScript, World.act, inside, World.endsScript, if_true]
    cases (Machine.step?_cons ..).symm.trans stepped
    simp only [exec]
    exact World.getDependency_call meant held _
  | @compile w site ref into later rest r found =>
    have exec : Frame.exec w (.script site (.compile ref into :: later)) =
        (w, [.compile r, .conclude site (.compiled into), .script site later]) := by
      simp only [Frame.exec, World.runScript, World.act, found, World.endsScript, Bool.false_eq_true, if_false]
      rfl
    cases (Machine.step?_cons ..).symm.trans stepped
    simp only [exec]
    exact .asked rfl rfl
  | @position w locator locators interfaces receiver rest r held =>
    have exec : Frame.exec w (.gather (some locator :: locators) interfaces receiver) =
        (w, [.compile r, .collect locators interfaces receiver]) := by
      simp only [Frame.exec, World.gather, Option.bind_some, held]
    cases (Machine.step?_cons ..).symm.trans stepped
    simp only [exec]
    exact .asked rfl rfl

/-- Whoever asks for a module that can be compiled gets what it exports at the return, and it is compiled or
being compiled by then; for any other there is no answer. -/
theorem Machine.Asks.told {called : Machine} (asks : called.Asks r below)
    (run : Run host (.fresh setup) past m) (returned : Returned past called below m) :
    m.Tells r (called.world.loader.canCompile r) := by
  obtain ⟨later, earlier, split, atop⟩ := returned.since
  have busy : called.stack ≠ [] := by cases asks <;> exact List.cons_ne_nil _ _
  have call := run.during (P := InCall r (called.world.loader.canCompile r) below) split busy atop
    (fun _ => asks.first) fun _ _ _ _ run atop call => call.next run atop
  cases call with
  | asked stack =>
    have left := stack.symm.trans returned.left
    exact absurd left (List.cons_ne_self _ _)
  | running top stack =>
    have left := congrArg List.length (stack.symm.trans returned.left)
    simp at left
    omega
  | ending top stack =>
    have left := congrArg List.length (stack.symm.trans returned.left)
    simp at left
    omega
  | answered stack tells => exact tells

end

end ModuleLoader
