import ModuleLoader.Proofs.Effects.Due
import ModuleLoader.Proofs.Ending.Asking
import ModuleLoader.Proofs.Pruning
import ModuleLoader.Proofs.Stock.Exec

/-! The work that frames and loads in progress go on to, as long as nothing is used up, nobody asks the
fetcher for anything and no record moves on. Each step leaves less of it. -/
namespace ModuleLoader

open Loader (Sound Toll Leans tolls)

/-- Each action counts once, and so does all that the loader is asked to do. -/
def Scale.plain : Scale := ⟨fun _ => 1, 1⟩

/-- The frames that ask the fetcher, or see to its answers. -/
def Frame.fetches : Frame → Bool
  | .entries (_ :: _) _ | .retrieved _ | .completeRest .. => true
  | _ => false

/-! What is left to do. -/

mutual

def Continuation.effort : Continuation → Nat
  | .arrive .. | .request .. => 1
  | .preload locators receiver => 3 + (1 + 11 * locators.length + receiver.effort)
  | .gather locators receiver => 1 + (1 + 11 * locators.length + receiver.effort)
  | .call _ => 2

def Receiver.effort : Receiver → Nat
  | .host _ => 2
  | .discard next => 1 + next.effort

end

section

variable (needs : Locator → Bool) (toll : Locator → Nat)

def Frame.effort : Frame → Nat
  | .load locators next => 2 + tolls needs toll locators + next.effort
  | .entries locators _ => 1 + (locators.map fun d => 1 + toll d).sum
  | .settled locator _ => toll locator
  | .resume next => next.effort
  | .request .. | .retrieved _ => 0
  | .preload next => 1 + next.effort
  | .gather locators _ receiver => 1 + 11 * locators.length + receiver.effort
  | .collect locators _ receiver => 2 + 11 * locators.length + receiver.effort
  | .deliver receiver _ => receiver.effort
  | .compile _ => 9
  | .runFactory .. | .runPatch .. => 2
  | .finishCompile _ => 4
  | .script .. | .conclude .. | .replaceInterface _ | .leaveFactory | .applyPatches .. | .answerExports _
  | .completeRest .. => 1

def Frame.efforts (frames : List Frame) : Nat := (frames.map (Frame.effort needs toll)).sum

end

/-- A step has left less to do, and names nothing new. -/
structure World.Lighter (w : World) (toll : Locator → Nat) (frame : Frame) (after : World × List Frame) :
    Prop where
  names : w.Names frame after.2
  less : Frame.efforts w.loader.needsLoading toll after.2 + after.1.loader.due Continuation.effort <
    frame.effort w.loader.needsLoading toll + w.loader.due Continuation.effort

namespace World

variable {w w' : World} {toll : Locator → Nat} {frame : Frame} {frames : List Frame}

theorem Lighter.of_same (barriers : w'.loader.barriers = w.loader.barriers)
    (bare : ∀ f ∈ frames, f.mentions = [])
    (less : Frame.efforts w.loader.needsLoading toll frames < frame.effort w.loader.needsLoading toll) :
    w.Lighter toll frame (w', frames) := by
  refine ⟨.of_bare bare, ?_⟩
  dsimp only
  rw [Loader.due_same _ barriers]
  exact Nat.add_lt_add_right less _

theorem Lighter.of_one {f : Frame} (barriers : w'.loader.barriers = w.loader.barriers)
    (bare : f.mentions = [])
    (less : f.effort w.loader.needsLoading toll < frame.effort w.loader.needsLoading toll) :
    w.Lighter toll frame (w', [f]) :=
  .of_same barriers (List.forall_mem_singleton.mpr bare) less

theorem Lighter.of_none (barriers : w'.loader.barriers = w.loader.barriers)
    (ample : 0 < frame.effort w.loader.needsLoading toll) : w.Lighter toll frame (w', []) :=
  .of_same barriers (List.forall_mem_nil _) ample

/-- What comes after a load that is over was due. -/
theorem arrive_lighter (barriers : w'.loader.barriers = w.loader.barriers) {b : BarrierId}
    (inside : b.index < w.loader.barriers.size) (loaded : Option RecordId)
    (ample : 0 < frame.effort w.loader.needsLoading toll) :
    w.Lighter toll frame (w'.arrive b loaded) := by
  have counted := (w'.arrive_counted b loaded).1.of_barriers barriers
  obtain ⟨next, frames, due⟩ := counted.due Continuation.effort inside
  constructor
  · refine .of_bare fun f member => ?_
    rw [frames, Option.mem_toList, Option.map_eq_some_iff] at member
    obtain ⟨next, -, rfl⟩ := member
    rfl
  · have resumed : Frame.efforts w.loader.needsLoading toll (next.map Frame.resume).toList =
        (next.map Continuation.effort).getD 0 := by
      cases next <;> rfl
    rw [frames, resumed, due]
    exact Nat.lt_add_of_pos_left ample

theorem load_lighter (w : World) (toll : Locator → Nat) (locators : List Locator) (next : Continuation) :
    w.Lighter toll (.load locators next) (w.load locators next) := by
  unfold load
  dsimp only
  split
  · refine .of_one rfl rfl ?_
    simp only [Frame.effort]
    omega
  · have opened : Loader.due Continuation.effort
        (w.loader.newBarrier (locators.filter w.loader.needsLoading).length next).1 =
        w.loader.due Continuation.effort + next.effort :=
      Loader.due_opened _ ⟨_, some next⟩ rfl
    constructor
    · intro f member d named
      rw [List.mem_singleton.mp member] at named
      exact .inl (List.mem_of_mem_filter named)
    · dsimp only at opened ⊢
      rw [opened]
      simp only [Frame.efforts, List.map_cons, List.map_nil, List.sum_cons, List.sum_nil, Frame.effort, tolls]
      omega

/-- What a module goes on to wait for has been paid for. -/
theorem settle_lighter (paid : Toll w.loader toll) {locator : Locator} {b : BarrierId}
    (inside : b.index < w.loader.barriers.size) :
    w.Lighter toll (.settled locator b) (w.settle locator b) := by
  have ample : 0 < Frame.effort w.loader.needsLoading toll (.settled locator b) := by
    rw [Frame.effort, paid]
    omega
  unfold settle Loader.settledEntry
  cases held : w.loader.entry? locator with
  | none => exact arrive_lighter rfl inside none ample
  | some r =>
    dsimp only
    by_cases below : w.loader.status r < .saved
    · rw [if_pos below]
      exact arrive_lighter rfl inside none ample
    · rw [if_neg below]
      have quiet := w.loader.reportAll_quiet (w.loader.pureDependencies r).2
      dsimp only
      split
      · rename_i missing
        split at missing <;> cases missing
      · exact arrive_lighter quiet.barriers inside _ ample
      · rename_i x dependencies waits
        obtain rfl : (w.loader.pureDependencies r).1 = dependencies := by
          split at waits <;> cases waits
          rfl
        have saved : .saved ≤ w.loader.status r := Nat.not_lt.mp below
        have price := paid locator
        rw [Loader.onward_of_saved held saved] at price
        constructor
        · intro f member d named
          rw [List.mem_singleton.mp member] at named
          exact .inr (Loader.mem_needed.mpr ⟨r, (Loader.mem_pureDependencies.mp named).1⟩)
        · dsimp only
          rw [Loader.due_same _ quiet.barriers]
          simp only [Frame.efforts, List.map_cons, List.map_nil, List.sum_cons, List.sum_nil, Frame.effort,
            Continuation.effort, tolls]
          omega

theorem callBack_lighter (w : World) (callback : Callback) (interfaces : List (Option Value))
    (ample : 1 < frame.effort w.loader.needsLoading toll) :
    w.Lighter toll frame (w.callBack callback interfaces) := by
  have same := World.bindArguments_same
    (w.write callback.place "callback" (some (.many (interfaces.map w.displayOption)))) interfaces
  exact .of_one (congrArg Loader.barriers same.loader) rfl ample

theorem finishCompile_lighter (w : World) (toll : Locator → Nat) (r : RecordId) :
    w.Lighter toll (.finishCompile r) (w.finishCompile r) := by
  refine .of_same rfl (fun f member => ?_) ?_
  · rcases List.mem_append.mp member with queue | last
    · obtain ⟨key, -, rfl⟩ := List.mem_map.mp queue
      rfl
    · rw [List.mem_singleton.mp last]
      rfl
  · cases second : (w.loader.record r).secondLocator with
    | none =>
      simp only [Record.patchKeys, second]
      exact (by decide : 2 < 4)
    | some key =>
      simp only [Record.patchKeys, second]
      exact (by decide : 3 < 4)

end World

open World (Lighter)

/-- A frame that uses up nothing, and that has nothing to do with the fetcher, leaves less to do. -/
theorem Frame.lighter {w : World} {toll : Locator → Nat} (sound : Sound w.loader) (paid : Toll w.loader toll)
    {frame : Frame} (free : Scale.plain.fee w frame = 0) (apart : frame.fetches = false)
    (inside : ∀ b, .barrier b ∈ frame.goals → b.index < w.loader.barriers.size) :
    w.Lighter toll frame (frame.exec w) := by
  have still (goals : frame.goals = []) : (frame.exec w).1.loader.barriers = w.loader.barriers :=
    (frame.effect sound).barriers_of_goals goals
  cases frame with
  | script site actions =>
    cases actions with
    | nil => exact .of_none rfl Nat.one_pos
    | cons => cases free
  | conclude site conclusion =>
    exact .of_none (congrArg Loader.barriers (w.conclude_same site conclusion).loader) Nat.one_pos
  | load locators next => exact w.load_lighter toll locators next
  | entries locators b =>
    cases locators with
    | nil => exact .of_none rfl Nat.one_pos
    | cons => cases apart
  | settled locator b => exact World.settle_lighter paid (inside b (List.mem_singleton_self _))
  | resume next =>
    cases next with
    | arrive b r => exact World.arrive_lighter rfl (inside b (List.mem_singleton_self _)) (some r) Nat.one_pos
    | request => exact .of_one rfl rfl Nat.one_pos
    | preload | gather =>
      refine .of_one rfl rfl ?_
      simp only [Frame.effort, Continuation.effort]
      omega
    | call callback => exact w.callBack_lighter callback [] (Nat.lt_succ_self 1)
  | request => cases free
  | preload next =>
    cases queued : w.loader.preloads with
    | nil =>
      simp only [exec, World.preload, queued]
      refine .of_one rfl rfl ?_
      simp only [Frame.effort]
      omega
    | cons => simp [Scale.fee, queued, Scale.plain] at free
  | gather locators interfaces receiver =>
    cases locators with
    | nil =>
      refine .of_one rfl rfl ?_
      simp only [Frame.effort, List.length_nil]
      omega
    | cons locator later =>
      simp only [exec, World.gather]
      split
      · refine .of_same rfl (by simp [mentions]) ?_
        simp only [efforts, List.map_cons, List.map_nil, List.sum_cons, List.sum_nil, Frame.effort,
          List.length_cons]
        omega
      · refine .of_one rfl rfl ?_
        simp only [Frame.effort, List.length_cons]
        omega
  | collect =>
    refine .of_one rfl rfl ?_
    simp only [Frame.effort]
    omega
  | deliver receiver interfaces =>
    cases receiver with
    | host callback => exact w.callBack_lighter callback interfaces (Nat.lt_succ_self 1)
    | discard next =>
      refine .of_one rfl rfl ?_
      simp only [Frame.effort, Receiver.effort]
      omega
  | retrieved => cases apart
  | compile r =>
    have barriers := still rfl
    obtain ⟨answer, same⟩ | ⟨body, source, -, -, -, -, frames⟩ | ⟨-, -, -, -, frames⟩ := w.compile_cases r
    · rw [exec, same]
      exact .of_none rfl (Nat.succ_pos _)
    · have left : Frame.exec w (.compile r) = ((w.compile r).1,
        [.runFactory r body, .replaceInterface r, .leaveFactory, .finishCompile r]) := Prod.ext rfl frames
      rw [left]
      exact .of_same barriers (by simp [mentions]) (by decide : 8 < 9)
    · have left : Frame.exec w (.compile r) = ((w.compile r).1, [.finishCompile r]) := Prod.ext rfl frames
      rw [left]
      exact .of_one barriers rfl (by decide : 4 < 9)
  | runFactory | runPatch => exact .of_one rfl rfl (Nat.lt_succ_self 1)
  | replaceInterface r =>
    have barriers := still rfl
    simp only [exec] at barriers ⊢
    split <;> exact .of_none rfl Nat.one_pos
  | leaveFactory | answerExports => exact .of_none rfl Nat.one_pos
  | finishCompile r => exact w.finishCompile_lighter toll r
  | applyPatches key r =>
    have none : (w.loader.takePatches key).2 = [] := by
      simpa only [Scale.fee, Scale.plain, Nat.one_mul, List.length_eq_zero_iff] using free
    have left : Frame.exec w (.applyPatches key r) = ((w.applyPatches key r).1, []) := by
      simp only [exec, World.applyPatches, none, List.flatMap_nil]
    rw [left]
    exact .of_none rfl Nat.one_pos
  | completeRest => cases apart

end ModuleLoader
