import ModuleLoader.Session

/-! Runs of a session. The machine works off its stack, and the host acts when nothing is left to do.
Past moments are kept, latest first, so that statements can speak of what has happened. -/
namespace ModuleLoader

/-- The moments `past` have led from `first` to the present one. The host takes only steps that it is
allowed to take. -/
inductive Run (host : Action → Prop) (first : Machine) : List Machine → Machine → Prop where
  | start : Run host first [] first
  | work {past : List Machine} {m next : Machine} (run : Run host first past m)
      (stepped : m.step? = some next) : Run host first (m :: past) next
  | act {past : List Machine} {w : World} (run : Run host first past ⟨w, []⟩) (action : Action)
      (allowed : host action) :
      Run host first (⟨w, []⟩ :: past) ⟨w, [.script .outer [action]]⟩

/-- A session before its first step. -/
def Machine.fresh (setup : Setup) : Machine := ⟨World.start setup, []⟩

/-- The page has asked for modules by identifier, and nothing has been done about it. -/
def Machine.asked (setup : Setup) (ids : List String) (tag : String) (body : Script) : Machine :=
  ⟨World.start setup, [.script .outer [.useModules ids tag body]]⟩

/-- The moments of at most `fuel` steps, latest first. -/
def Machine.moments : Nat → Machine → List Machine
  | 0, _ => []
  | fuel + 1, m =>
    match m.step? with
    | some next => moments fuel next ++ [m]
    | none => []

namespace World

/-- The moments of a session in which the host takes the given steps, latest first. -/
def moments (fuel : Nat) (w : World) : List Action → List Machine
  | [] => []
  | action :: rest =>
    (w.perform fuel action).moments fuel rest ++
      (Machine.moments fuel ⟨w, [.script .outer [action]]⟩ ++ [⟨w, []⟩])

/-- Is the work of each step done within so many steps of the machine? -/
def comesToRest (fuel : Nat) (w : World) : List Action → Bool
  | [] => true
  | action :: rest =>
    (Machine.run fuel ⟨w, [.script .outer [action]]⟩).stack.isEmpty &&
      (w.perform fuel action).comesToRest fuel rest

end World

theorem Machine.step?_cons (w : World) (frame : Frame) (rest : List Frame) :
    Machine.step? ⟨w, frame :: rest⟩ =
      some ⟨(frame.exec w).1, (frame.exec w).2 ++ rest⟩ := rfl

theorem Machine.step?_of_work {m : Machine} (work : m.stack.isEmpty = false) :
    m.step? = some (Machine.run 1 m) := by
  obtain ⟨w, stack⟩ := m
  cases stack with
  | nil => cases work
  | cons frame rest => rfl

namespace Run

variable {host : Action → Prop} {first m : Machine} {past : List Machine}

/-- What holds at the start and is kept by the work of each frame and by each step of the host holds
at every moment. -/
theorem invariant {P : List Machine → Machine → Prop} (initial : P [] first)
    (worked : ∀ past w frame rest, Run host first past ⟨w, frame :: rest⟩ → P past ⟨w, frame :: rest⟩ →
      P (⟨w, frame :: rest⟩ :: past) ⟨(frame.exec w).1, (frame.exec w).2 ++ rest⟩)
    (acted : ∀ past w action, Run host first past ⟨w, []⟩ → host action → P past ⟨w, []⟩ →
      P (⟨w, []⟩ :: past) ⟨w, [.script .outer [action]]⟩)
    (run : Run host first past m) : P past m := by
  induction run with
  | start => exact initial
  | @work past m next run stepped ih =>
    obtain ⟨w, stack⟩ := m
    cases stack with
    | nil => cases stepped
    | cons frame rest =>
      cases Option.some.inj stepped
      exact worked past w frame rest run ih
  | act run action allowed ih => exact acted _ _ action run allowed ih

/-- Every past moment has a past of its own. -/
theorem at_moment (run : Run host first past m) {moment : Machine} (passed : moment ∈ past) :
    ∃ later earlier, past = later ++ moment :: earlier ∧ Run host first earlier moment := by
  induction run with
  | start => cases passed
  | @work past m next run stepped ih =>
    rcases List.mem_cons.mp passed with rfl | passed
    · exact ⟨[], past, rfl, run⟩
    · obtain ⟨later, earlier, rfl, origin⟩ := ih passed
      exact ⟨m :: later, earlier, rfl, origin⟩
  | @act past w run action allowed ih =>
    rcases List.mem_cons.mp passed with rfl | passed
    · exact ⟨[], past, rfl, run⟩
    · obtain ⟨later, earlier, rfl, origin⟩ := ih passed
      exact ⟨⟨w, []⟩ :: later, earlier, rfl, origin⟩

/-- A run from where another one has led goes on with it. -/
theorem trans {origin : Machine} {before : List Machine} (earlier : Run host origin before first)
    (run : Run host first past m) : Run host origin (past ++ before) m := by
  induction run with
  | start => exact earlier
  | work run stepped ih => exact .work ih stepped
  | act run action allowed ih => exact .act ih action allowed

/-- A host that may take more steps can do the same. -/
theorem mono {wider : Action → Prop} (wide : ∀ action, host action → wider action)
    (run : Run host first past m) : Run wider first past m := by
  induction run with
  | start => exact .start
  | work run stepped ih => exact .work ih stepped
  | act run action allowed ih => exact .act ih action (wide action allowed)

/-- The machine may be left to itself for a number of steps. -/
theorem continued (run : Run host first past m) (fuel : Nat) :
    Run host first (Machine.moments fuel m ++ past) (Machine.run fuel m) := by
  induction fuel generalizing past m with
  | zero => exact run
  | succ fuel ih =>
    rw [Machine.run, Machine.moments]
    cases stepped : m.step? with
    | none => exact run
    | some next =>
      have later := ih (.work run stepped)
      rw [List.append_assoc]
      exact later

/-- The host takes steps one after the other, each when the work of the one before is done. -/
theorem played {w : World} (run : Run host first past ⟨w, []⟩) (fuel : Nat) (actions : List Action)
    (allowed : ∀ action ∈ actions, host action) (rest : w.comesToRest fuel actions = true) :
    Run host first (w.moments fuel actions ++ past) ⟨actions.foldl (World.perform fuel) w, []⟩ := by
  induction actions generalizing w past with
  | nil => exact run
  | cons action actions ih =>
    rw [World.comesToRest, Bool.and_eq_true] at rest
    have still : Machine.run fuel ⟨w, [.script .outer [action]]⟩ = ⟨w.perform fuel action, []⟩ :=
      congrArg (Machine.mk _) (List.isEmpty_iff.mp rest.1)
    have step := (run.act action (allowed action (List.mem_cons_self ..))).continued fuel
    rw [still] at step
    have later := ih step (fun a member => allowed a (List.mem_cons_of_mem _ member)) rest.2
    rw [World.moments, List.append_assoc, List.append_assoc]
    exact later

end Run

/-- A session over one file. -/
def Setup.lone (policy : FetchPolicy) : Setup where
  config := {}
  resolver := .flat
  policy
  sink := .silent
  files := [(⟨"mem:a"⟩, .mk none (some []) (.value (.int 1)))]

end ModuleLoader
