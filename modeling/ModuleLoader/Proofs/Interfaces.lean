import ModuleLoader.Proofs.Allocation
import ModuleLoader.Proofs.Compilation
import ModuleLoader.Proofs.Interfaces.Replacing
import ModuleLoader.Proofs.Places
import ModuleLoader.Proofs.Positions

/-! Interfaces are final as soon as they are there. A module that asks for another one while that is being
compiled is given an interface that is not complete; whoever asks later is given the very same value, unless
the module, a patch or the host has put another one in its place in between. -/
namespace ModuleLoader

open Loader (Sound)

/-- The value that a frame puts in the place of a module's interface, if it does. -/
def Frame.puts? (w : World) (r : RecordId) (frame : Frame) : Option Value :=
  (frame.replaces? w).bind fun replaced => if replaced.1 = r then some replaced.2 else none

/-- The value that the next step puts in the place of a module's interface, if it does. -/
def Machine.replaces? (m : Machine) (r : RecordId) : Option Value := m.stack.head?.bind (Frame.puts? m.world r)

/-- The values that have been put in the place of a module's interface, latest first. -/
def replacements (r : RecordId) (past : List Machine) : List Value := past.filterMap (Machine.replaces? · r)

/-- What the next step makes of a member of an object, if it changes it: nothing if it is removed. -/
def Machine.changes? (m : Machine) (id : ObjectId) (key : String) : Option (Option Value) :=
  (m.stack.head?.bind (Frame.changes? m.world)).bind (Memory.Change.of? id key)

/-- How another value comes to stand in the place of a module's interface. -/
inductive Replacement (past : List Machine) (m : Machine) (r : RecordId) (value : Value) : Prop where
  /-- The module's own body has given the value back. -/
  | factory {called : Machine} {body : Script} {source : Option String} {below : List Frame}
      (entered : called.stack = .runFactory r body :: .replaceInterface r :: below)
      (own : (called.world.loader.record r).factory = some (.function body source))
      (returned : Returned past called (.replaceInterface r :: below) m)
      (answer : m.world.answer = some value) : Replacement past m r value
  /-- The module is registered with the value, and its compilation begins. -/
  | installed {below : List Frame} (stack : m.stack = .compile r :: below)
      (idle : m.world.loader.status r < .compiling) (able : m.world.loader.canCompile r = true)
      (own : (m.world.loader.record r).factory = some (.value value)) : Replacement past m r value
  /-- A patch has given the value back. -/
  | patch {called : Machine} {patch : Patch} {below : List Frame}
      (entered : called.stack = .runPatch r patch :: .replaceInterface r :: below)
      (returned : Returned past called (.replaceInterface r :: below) m)
      (answer : m.world.answer = some value) : Replacement past m r value
  /-- The host sets the interface. -/
  | set {site : Site} {ref : RecordRef} {e : Expr} {later : Script} {below : List Frame}
      (stack : m.stack = .script site (.setExports ref e :: later) :: below)
      (found : m.world.find? site ref = some r) (meant : (m.world.eval site e).2 = value) :
      Replacement past m r value

/-- Since the moments `earlier`, a module's interface has been replaced. -/
def Replaced (r : RecordId) (since earlier : List Machine) : Prop :=
  ∃ later step before value, since = later ++ step :: before ∧ Replacement (before ++ earlier) step r value

/-- What a body gives back is waited for by the frame below it, until it is there. -/
def Awaited (past : List Machine) (m : Machine) : Prop :=
  ∀ top r below, m.stack = top ++ .replaceInterface r :: below →
    (∃ above body, top = above ++ [body] ∧ body.body? = some r) ∨
      ∃ called body since earlier, called.stack = body :: .replaceInterface r :: below ∧ body.body? = some r ∧
        past = since ++ called :: earlier ∧ ∀ moment ∈ since, moment.Over (.replaceInterface r :: below)

/-- Whoever asked for the interface of a module has been answered with a value. -/
def Obtained (past : List Machine) (m : Machine) (r : RecordId) (value : Value) : Prop :=
  ∃ called below, called.Asks r below ∧ Returned past called below m ∧ m.world.answer = some value

section

variable {w w' : World} {frame : Frame} {frames : List Frame} {r : RecordId}

theorem Frame.puts?_eq_some {value : Value} : frame.puts? w r = some value ↔ frame.replaces? w = some (r, value) := by
  rw [puts?, Option.bind_eq_some_iff]
  constructor
  · rintro ⟨⟨x, v⟩, here, same⟩
    obtain ⟨own, same⟩ := Option.ite_none_right_eq_some.mp same
    cases same
    exact here.trans (congrArg (fun x => some (x, v)) own)
  · exact fun here => ⟨(r, value), here, if_pos rfl⟩

theorem Machine.replaces?_iff {m : Machine} {value : Value} : m.replaces? r = some value ↔
    ∃ frame rest, m.stack = frame :: rest ∧ frame.replaces? m.world = some (r, value) := by
  obtain ⟨w, stack⟩ := m
  cases stack with
  | nil => simp [replaces?]
  | cons frame rest =>
    refine Frame.puts?_eq_some.trans ⟨fun here => ⟨frame, rest, rfl, here⟩, ?_⟩
    rintro ⟨_, _, ⟨⟩, here⟩
    exact here

theorem Loader.exports_setExports {l : Loader} {x : RecordId} (inside : x.index < l.records.size) (value : Value) :
    ((l.setExports x value).record r).exports = if x = r then some value else (l.record r).exports := by
  rw [setExports, record_updateRecord_inside inside]
  by_cases same : r = x
  · rw [if_pos same, if_pos same.symm]
  · rw [if_neg same, if_neg (Ne.symm same)]

/-- A module that has begun to be compiled exports what it did before a step, or what the step puts in its
place. -/
theorem Reveals.exports (reveals : Reveals w frame w' frames) (late : .compiling ≤ w.loader.status r)
    (known : ∀ x value, frame.replaces? w = some (x, value) → w.loader.status x ≠ .unknown) :
    (w'.loader.record r).exports = (frame.puts? w r).or (w.loader.record r).exports := by
  have put {x : RecordId} {value : Value} (replaces : frame.replaces? w = some (x, value))
      (loader : w'.loader = w.loader.setExports x value) :
      (w'.loader.record r).exports = (frame.puts? w r).or (w.loader.record r).exports := by
    rw [loader, Loader.exports_setExports (Loader.index_lt_of_known (known x value replaces)), Frame.puts?, replaces,
      Option.bind_some]
    split <;> rfl
  have kept (silent : ∀ value, frame.replaces? w ≠ some (r, value))
      (same : (w'.loader.record r).exports = (w.loader.record r).exports) :
      (w'.loader.record r).exports = (frame.puts? w r).or (w.loader.record r).exports := by
    have none : frame.puts? w r = none :=
      Option.eq_none_iff_forall_ne_some.mpr fun value puts => silent value (Frame.puts?_eq_some.mp puts)
    rw [same, none, Option.none_or]
  cases reveals with
  | aside silent exposes plain =>
    exact kept (fun value replaces => Status.not_le.mpr (silent r value replaces) late) (exposes r late).2
  | began x begins =>
    refine kept (fun value replaces => ?_) (begins.exposes r late).2
    simp only [Frame.replaces?] at replaces
    split at replaces
    · rename_i early
      split at replaces
      · cases replaces
        exact Status.not_le.mpr early.1 late
      · cases replaces
    · cases replaces
  | returned x value answers loader => exact put (by rw [Frame.replaces?, answers, Option.map_some]) loader
  | set site ref e rest x found loader => exact put (by rw [Frame.replaces?, found, Option.map_some]) loader
  | patched site rest id body x patch loader => exact kept (fun _ replaces => by cases replaces) (by rw [loader])
  | taken key x => exact kept (fun _ replaces => by cases replaces) rfl

/-- A frame that waits for what a body gives back stands right below the body. -/
theorem Reveals.guarded (reveals : Reveals w frame w' frames) {first last : List Frame}
    (split : frames = first ++ .replaceInterface r :: last) :
    ∃ above body, first = above ++ [body] ∧ body.body? = some r := by
  have absent {fs : List Frame} (plain : ∀ f ∈ fs, f.returns? = none) {first last : List Frame}
      (split : fs = first ++ .replaceInterface r :: last) : False := by
    cases plain _ (split ▸ List.mem_append_right first (List.mem_cons_self ..))
  have second {body : Frame} {x : RecordId} {fs : List Frame} (runs : body.body? = some x)
      (plain : ∀ f ∈ fs, f.returns? = none) (split : body :: .replaceInterface x :: fs =
        first ++ .replaceInterface r :: last) : ∃ above body, first = above ++ [body] ∧ body.body? = some r := by
    cases first with
    | nil =>
      cases split
      cases runs
    | cons one first =>
      obtain ⟨rfl, under⟩ := List.cons.inj split
      cases first with
      | nil =>
        cases under
        exact ⟨[], body, rfl, runs⟩
      | cons other first => exact (absent plain (List.cons.inj under).2).elim
  cases reveals with
  | aside silent exposes plain => exact (absent plain split).elim
  | began x begins enters =>
    obtain plain | ⟨body, rfl⟩ := enters
    · exact (absent plain split).elim
    · exact second rfl (by simp [Frame.returns?]) split
  | returned x value => simp at split
  | set site ref e rest x found loader plain => exact (absent plain split).elim
  | patched site rest id body x patch loader plain => exact second rfl plain split
  | taken key x =>
    have bodies : (w.applyPatches key x).2 = (w.loader.patchesFor key).flatMap fun patch =>
      [.runPatch x patch, .replaceInterface x] := rfl
    rw [bodies] at split
    clear absent second bodies
    generalize w.loader.patchesFor key = queue at split
    induction queue generalizing first with
    | nil => simp at split
    | cons patch queue ih =>
      rw [List.flatMap_cons] at split
      cases first with
      | nil => cases split
      | cons one first =>
        obtain ⟨rfl, under⟩ := List.cons.inj split
        cases first with
        | nil =>
          cases under
          exact ⟨[], _, rfl, rfl⟩
        | cons other first =>
          obtain ⟨above, body, rfl, runs⟩ := ih (List.cons.inj under).2
          exact ⟨_ :: _ :: above, body, rfl, runs⟩

end

section

variable {host : Action → Prop} {setup : Setup} {past : List Machine} {m : Machine} {r : RecordId}

theorem Run.reveals {w : World} {frame : Frame} {rest : List Frame}
    (run : Run host (.fresh setup) past ⟨w, frame :: rest⟩) :
    Reveals w frame (frame.exec w).1 (frame.exec w).2 := by
  refine Frame.reveals run.sound fun b r same => ?_
  have bears := (founded_always run).stack frame (List.mem_cons_self ..)
  exact bears (r, .saved) (by simp [same, Frame.relies, Continuation.relies])

theorem awaited_always (run : Run host (.fresh setup) past m) : Awaited past m := by
  refine run.invariant (P := Awaited) ?_ ?_ ?_
  · intro top r below stack
    simp [Machine.fresh] at stack
  · intro past w frame rest run awaited top r below stack
    have under (above : List Frame) (waits : rest = above ++ .replaceInterface r :: below)
        (placed : top = (frame.exec w).2 ++ above) :
        (∃ above body, top = above ++ [body] ∧ body.body? = some r) ∨
          ∃ called body since earlier, called.stack = body :: .replaceInterface r :: below ∧
            body.body? = some r ∧ ⟨w, frame :: rest⟩ :: past = since ++ called :: earlier ∧
              ∀ moment ∈ since, moment.Over (.replaceInterface r :: below) := by
      have atop : Machine.Over (.replaceInterface r :: below) ⟨w, frame :: rest⟩ :=
        ⟨frame :: above, List.cons_ne_nil _ _, congrArg _ waits⟩
      obtain ⟨higher, body, last, runs⟩ | ⟨called, body, since, earlier, entered, runs, rfl, above⟩ :=
        awaited (frame :: above) r below (congrArg _ waits)
      · cases above with
        | nil =>
          -- The body is entered by this step.
          have own : frame = body := by
            cases higher with
            | nil => exact (List.cons.inj last).1
            | cons f higher => simp at last
          exact .inr ⟨_, body, [], past, by rw [waits, own]; rfl, runs, rfl, List.forall_mem_nil _⟩
        | cons f above =>
          obtain ⟨between, ends⟩ : ∃ between, f :: above = between ++ [body] := by
            cases higher with
            | nil => simp at last
            | cons g higher => exact ⟨higher, (List.cons.inj last).2⟩
          exact .inl ⟨(frame.exec w).2 ++ between, body, by rw [placed, ends, List.append_assoc], runs⟩
      · exact .inr ⟨called, body, _ :: since, earlier, entered, runs, rfl, List.forall_mem_cons.mpr ⟨atop, above⟩⟩
    obtain ⟨above, placed, waits⟩ | ⟨made, frames, stack⟩ := List.append_eq_append_iff.mp stack
    · exact under _ waits placed
    · cases made with
      | nil => exact under [] stack.symm (by simpa using frames.symm)
      | cons f last =>
        obtain ⟨rfl, rfl⟩ := List.cons.inj stack
        exact .inl (run.reveals.guarded frames)
  · intro past w action _ _ _ top r below stack
    cases top with
    | nil => cases stack
    | cons f top => simp at stack

/-- The module whose interface is replaced has been made. -/
theorem Run.replaced_known {w : World} {frame : Frame} {rest : List Frame} {value : Value}
    (run : Run host (.fresh setup) past ⟨w, frame :: rest⟩) (replaces : frame.replaces? w = some (r, value)) :
    w.loader.status r ≠ .unknown := by
  have bears := (founded_always run).stack frame (List.mem_cons_self ..)
  have requested (there : .fetching ≤ w.loader.status r) : w.loader.status r ≠ .unknown :=
    Status.ne_unknown_of_le (a := .fetching) (by decide) there
  cases frame with
  | replaceInterface x =>
    obtain ⟨answer, -, same⟩ := Option.map_eq_some_iff.mp replaces
    cases same
    exact requested (bears (r, .fetching) (List.mem_singleton_self _))
  | compile x =>
    simp only [Frame.replaces?] at replaces
    split at replaces
    · split at replaces
      · cases replaces
        exact requested (bears (r, .fetching) (List.mem_singleton_self _))
      · cases replaces
    · cases replaces
  | script site actions =>
    cases actions with
    | nil => cases replaces
    | cons action later =>
      cases action with
      | setExports ref e =>
        obtain ⟨x, found, same⟩ := Option.map_eq_some_iff.mp replaces
        cases same
        exact requested (World.find?_requested run.sound (founded_always run).world bears found)
      | _ => cases replaces
  | _ => cases replaces

/-- What each step leaves alone or puts in its place is, in the end, what has been put there last. -/
theorem Run.latest {β : Type} {P : Machine → Prop} {later earlier : List Machine} {moment : Machine}
    (run : Run host (.fresh setup) past m) (value : Machine → β) (change : Machine → Option β)
    (split : past = later ++ moment :: earlier) (holds : P moment)
    (worked : ∀ past w frame rest, Run host (.fresh setup) past ⟨w, frame :: rest⟩ → P ⟨w, frame :: rest⟩ →
      P ⟨(frame.exec w).1, (frame.exec w).2 ++ rest⟩ ∧ value ⟨(frame.exec w).1, (frame.exec w).2 ++ rest⟩ =
        (change ⟨w, frame :: rest⟩).getD (value ⟨w, frame :: rest⟩))
    (acted : ∀ w action, P ⟨w, []⟩ → P ⟨w, [.script .outer [action]]⟩ ∧
      value ⟨w, [.script .outer [action]]⟩ = (change ⟨w, []⟩).getD (value ⟨w, []⟩)) :
    P m ∧ value m = ((later ++ [moment]).filterMap change).head?.getD (value moment) := by
  have further {last next : Machine} (since : List Machine)
      (stepped : value next = (change last).getD (value last))
      (before : value last = (since.filterMap change).head?.getD (value moment)) :
      value next = ((last :: since).filterMap change).head?.getD (value moment) := by
    rw [filterMap_cons_toList, stepped, before]
    cases change last <;> rfl
  refine run.invariant (P := fun past m => ∀ later, past = later ++ moment :: earlier →
    P m ∧ value m = ((later ++ [moment]).filterMap change).head?.getD (value moment)) ?_ ?_ ?_ later split
  · intro later split
    simp at split
  · intro past w frame rest run before later split
    cases later with
    | nil =>
      obtain ⟨rfl, -⟩ := List.cons.inj split
      obtain ⟨kept, stepped⟩ := worked past w frame rest run holds
      exact ⟨kept, further [] stepped rfl⟩
    | cons last later =>
      obtain ⟨held, same⟩ := before later (List.cons.inj split).2
      obtain rfl := (List.cons.inj split).1
      obtain ⟨kept, stepped⟩ := worked past w frame rest run held
      exact ⟨kept, further _ stepped same⟩
  · intro past w action run _ before later split
    cases later with
    | nil =>
      obtain ⟨rfl, -⟩ := List.cons.inj split
      obtain ⟨kept, stepped⟩ := acted w action holds
      exact ⟨kept, further [] stepped rfl⟩
    | cons last later =>
      obtain ⟨held, same⟩ := before later (List.cons.inj split).2
      obtain rfl := (List.cons.inj split).1
      obtain ⟨kept, stepped⟩ := acted w action held
      exact ⟨kept, further _ stepped same⟩

/-- Since it has begun to be compiled, a module exports what was put in its place last. -/
theorem Run.exports_since {later earlier : List Machine} {moment : Machine} (run : Run host (.fresh setup) past m)
    (split : past = later ++ moment :: earlier) (late : .compiling ≤ moment.world.loader.status r) :
    .compiling ≤ m.world.loader.status r ∧ (m.world.loader.record r).exports =
      (replacements r (later ++ [moment])).head?.or (moment.world.loader.record r).exports := by
  obtain ⟨now, same⟩ := run.latest (P := fun m => .compiling ≤ m.world.loader.status r)
    (fun m => (m.world.loader.record r).exports) (fun m => (m.replaces? r).map some) split late
    (fun past w frame rest run late => by
      refine ⟨Status.le_trans late (run.turn.rises r), ?_⟩
      rw [run.reveals.exports late fun _ _ => run.replaced_known]
      show _ = ((frame.puts? w r).map some).getD _
      cases frame.puts? w r <;> rfl)
    fun w action late => ⟨late, rfl⟩
  refine ⟨now, same.trans ?_⟩
  rw [replacements, ← List.map_filterMap, List.head?_map]
  cases (List.filterMap (Machine.replaces? · r) (later ++ [moment])).head? <;> rfl

/-- A member of an object that has been made is what it was changed to last. -/
theorem Run.member_since {later earlier : List Machine} {moment : Machine} {id : ObjectId}
    (run : Run host (.fresh setup) past m) (split : past = later ++ moment :: earlier)
    (has : moment.world.memory.Has (.object id)) (key : String) : m.world.memory.member? (.object id) key =
      ((later ++ [moment]).filterMap (Machine.changes? · id key)).head?.getD
        (moment.world.memory.member? (.object id) key) := by
  refine (run.latest (P := fun m => m.world.memory.Has (.object id))
    (fun m => m.world.memory.member? (.object id) key) (Machine.changes? · id key) split has
    (fun past w frame rest run has => ?_) fun w action has => ⟨has, rfl⟩).2
  obtain ⟨whole, own⟩ := whole_always run
  have changes := (Frame.keeps whole (own frame (List.mem_cons_self ..))).memory
  exact ⟨has.mono changes.grows, changes.member? has key⟩

/-- Whatever replaces an interface is a body that gives something back, a registration, or the host. -/
theorem Run.replacement {value : Value} (run : Run host (.fresh setup) past m)
    (replaces : m.replaces? r = some value) : Replacement past m r value := by
  obtain ⟨frame, rest, stack, replaces⟩ := Machine.replaces?_iff.mp replaces
  obtain ⟨w, _⟩ := m
  cases stack
  cases frame with
  | replaceInterface x =>
    obtain ⟨answer, answers, same⟩ := Option.map_eq_some_iff.mp replaces
    cases same
    obtain ⟨above, body, none, -⟩ | ⟨called, body, since, earlier, entered, runs, rfl, atop⟩ :=
      awaited_always run [] r rest rfl
    · simp at none
    · have returned : Returned (since ++ called :: earlier) called (.replaceInterface r :: rest)
          ⟨w, .replaceInterface r :: rest⟩ := ⟨rfl, since, earlier, rfl, atop⟩
      cases body with
      | runFactory x body =>
        cases runs
        have stage := (singleFlight_always (run.up_to rfl)).stage
        rw [entered] at stage
        cases stage with
        | inside nested =>
          cases nested with
          | frame plain => cases plain
        | entering nested begun own =>
          obtain ⟨source, own⟩ := own
          exact .factory entered own returned answers
      | runPatch x patch =>
        cases runs
        exact .patch entered returned answers
      | _ => cases runs
  | compile x =>
    simp only [Frame.replaces?] at replaces
    split at replaces
    · rename_i begins
      split at replaces
      · rename_i own
        cases replaces
        exact .installed rfl begins.1 begins.2 own
      · cases replaces
    · cases replaces
  | script site actions =>
    cases actions with
    | nil => cases replaces
    | cons action later =>
      cases action with
      | setExports ref e =>
        obtain ⟨x, found, same⟩ := Option.map_eq_some_iff.mp replaces
        cases same
        exact .set rfl found rfl
      | _ => cases replaces
  | _ => cases replaces

/-- Where nothing has replaced an interface, the module exports what it did. -/
theorem Run.replaced {later earlier : List Machine} {moment : Machine} (run : Run host (.fresh setup) past m)
    (split : past = later ++ moment :: earlier) (some : replacements r (later ++ [moment]) ≠ []) :
    Replaced r (later ++ [moment]) earlier := by
  obtain ⟨value, member⟩ := List.exists_mem_of_ne_nil _ some
  obtain ⟨step, passed, replaces⟩ := List.mem_filterMap.mp member
  obtain ⟨since, before, here⟩ := List.append_of_mem passed
  have place : past = since ++ step :: (before ++ earlier) := by
    rw [split, ← List.singleton_append, ← List.append_assoc, here, List.append_assoc, List.cons_append]
  exact ⟨since, step, before, value, here, (run.up_to place).replacement replaces⟩

/-- The module whose interface a body asks for next. -/
def Machine.wants? (m : Machine) : Option RecordId :=
  match m.stack with
  | .script site (.get id _ _ :: _) :: _ => site.context.bind fun c =>
    (m.world.loader.resolve id (some (m.world.loader.record c.record).locator)).bind m.world.loader.entry?
  | _ => none

/-- A module that is being compiled is answered for at once, with the interface that it has so far. -/
theorem Obtained.at_once {next : Machine} {value : Value} (wants : m.wants? = some r)
    (compiling : m.world.loader.status r = .compiling) (exported : (m.world.loader.record r).exports = some value)
    (stepped : m.step? = some next) : Obtained (m :: past) next r value := by
  obtain ⟨w, stack⟩ := m
  unfold Machine.wants? at wants
  split at wants
  · rename_i site id into key later rest same
    dsimp only at same
    subst same
    obtain ⟨c, inside, wants⟩ := Option.bind_eq_some_iff.mp wants
    obtain ⟨locator, meant, held⟩ := Option.bind_eq_some_iff.mp wants
    have asks : Machine.Asks ⟨w, .script site (.get id into key :: later) :: rest⟩ r
        (.conclude site (.got into key) :: .script site later :: rest) := .get inside meant held
    have exec : Frame.exec w (.script site (.get id into key :: later)) =
        ({ w with answer := some value }, [.conclude site (.got into key), .script site later]) := by
      have answered : w.getDependency c id = ({ w with answer := some value }, []) := by
        unfold World.getDependency
        simp only [meant, held]
        split
        · rw [exported]
        · rw [exported]
        · rename_i other _
          exact absurd compiling other
      simp only [Frame.exec, World.runScript, World.act, inside, answered, World.endsScript]
      rfl
    cases (Machine.step?_cons ..).symm.trans stepped
    rw [exec]
    exact ⟨_, _, asks, ⟨rfl, [], past, rfl, List.forall_mem_nil _⟩, rfl⟩
  · cases wants

theorem Replacement.replaces {value : Value} (replacement : Replacement past m r value) :
    m.replaces? r = some value := by
  obtain ⟨w, stack⟩ := m
  rw [Machine.replaces?_iff]
  cases replacement with
  | factory entered own returned answer | patch entered returned answer =>
    cases returned.left
    exact ⟨_, _, rfl, by rw [Frame.replaces?, show w.answer = some value from answer, Option.map_some]⟩
  | installed stack idle able own =>
    cases stack
    refine ⟨_, _, rfl, ?_⟩
    simp only [Frame.replaces?]
    rw [if_pos ⟨idle, able⟩, own]
  | set stack found meant =>
    cases stack
    refine ⟨_, _, rfl, ?_⟩
    rw [Frame.replaces?, found, Option.map_some, meant]

theorem Replaced.some {since earlier : List Machine} (replaced : Replaced r since earlier) :
    replacements r since ≠ [] := by
  obtain ⟨later, step, before, value, rfl, replacement⟩ := replaced
  exact List.ne_nil_of_mem (List.mem_filterMap.mpr
    ⟨step, List.mem_append_right _ (List.mem_cons_self ..), replacement.replaces⟩)

/-- What has been obtained is what the module exports. -/
theorem Obtained.exports {value : Value} (run : Run host (.fresh setup) past m) (obtained : Obtained past m r value) :
    .compiling ≤ m.world.loader.status r ∧ (m.world.loader.record r).exports = some value := by
  obtain ⟨called, below, asks, returned, answer⟩ := obtained
  have tells := asks.told run returned
  unfold Machine.Tells at tells
  split at tells
  · exact ⟨tells.1, tells.2.symm.trans answer⟩
  · cases tells.symm.trans answer

/-- Each interface that is about to be handed to the host was obtained when its turn came. -/
theorem Run.delivered {callback : Callback} {interfaces : List (Option Value)} {below : List Frame} {i : Nat}
    {value : Value} (run : Run host (.fresh setup) past m)
    (stack : m.stack = .deliver (.host callback) interfaces :: below) (here : interfaces[i]? = some (some value)) :
    ∃ since back before r, past = since ++ back :: before ∧ Obtained before back r value := by
  obtain ⟨locators, -, -, filled⟩ := (sought_always run).frames _ (stack ▸ List.mem_cons_self ..)
  obtain ⟨k, -, position⟩ := filled i _ here
  generalize answers : some value = v at position
  cases position with
  | nowhere | absent => cases answers
  | @told turn back k r below since before split stack held returned =>
    obtain ⟨w, _⟩ := turn
    cases stack
    exact ⟨since, back, before, r, split, _, _, .position held, returned, answers.symm⟩

/-- What a module exports once its compilation has begun is final, unless a body gives something back, the
module's value is installed or the host sets the interface. So whoever has obtained it then, complete or not, has
the very value that is handed out by everything that hands it out later, with the members that it is given later. -/
theorem partial_interfaces_final (run : Run host (.fresh setup) past m) {later earlier : List Machine}
    {moment : Machine} (split : past = later ++ moment :: earlier) (r : RecordId) :
    (.compiling ≤ moment.world.loader.status r →
      (m.world.loader.record r).exports ≠ (moment.world.loader.record r).exports →
        Replaced r (later ++ [moment]) earlier) ∧
    ∀ value, Obtained earlier moment r value → ¬ Replaced r (later ++ [moment]) earlier →
      (m.world.loader.record r).exports = some value ∧
      (∀ again, Obtained past m r again → again = value) ∧
      (∀ selector (i : Nat) locator, (m.world.loader.found selector)[i]? = some locator →
        m.world.loader.entry? locator = some r → (m.world.loader.find selector)[i]? = some value) ∧
      (∀ (interfaces : List (Option Value)) (i : Nat) callback below given,
        m.stack = .deliver (.host callback) interfaces :: below →
        interfaces[i]? = some (some given) → ∃ since back before own, past = since ++ back :: before ∧
          Obtained before back own given ∧ (own = r → since.length < later.length → given = value)) ∧
      ∀ id key, value = .object id → m.world.memory.member? value key =
        ((later ++ [moment]).filterMap (Machine.changes? · id key)).head?.getD
          (moment.world.memory.member? value key) := by
  have unchanged {past later earlier : List Machine} {m moment : Machine} (run : Run host (.fresh setup) past m)
      (split : past = later ++ moment :: earlier) (late : .compiling ≤ moment.world.loader.status r)
      (kept : ¬ Replaced r (later ++ [moment]) earlier) :
      (m.world.loader.record r).exports = (moment.world.loader.record r).exports := by
    have none : replacements r (later ++ [moment]) = [] := by_contra fun some => kept (run.replaced split some)
    rw [(run.exports_since split late).2, none]
    rfl
  refine ⟨fun late differs => by_contra fun kept => differs (unchanged run split late kept),
    fun value obtained kept => ?_⟩
  have origin := run.up_to split
  obtain ⟨late, first⟩ := obtained.exports origin
  have now := (unchanged run split late kept).trans first
  refine ⟨now, fun again other => ?_, fun selector i locator placed held => ?_,
    fun interfaces i callback below given stack here => ?_, fun id key object => ?_⟩
  · exact Option.some.inj ((other.exports run).2.symm.trans now)
  · have places := congrArg (·[i]?) (Loader.find_eq_found (staged_always run) selector)
    simp only [List.getElem?_map, placed, Option.map_some, Loader.interface?, held, Option.bind_some, now] at places
    obtain ⟨given, there, same⟩ := Option.map_eq_some_iff.mp places.symm
    exact there.trans same
  · obtain ⟨since, back, before, own, passed, other⟩ := run.delivered stack here
    refine ⟨since, back, before, own, passed, other, fun same between => ?_⟩
    obtain ⟨middle, rfl, rest⟩ : ∃ middle, later = since ++ back :: middle ∧ before = middle ++ moment :: earlier := by
      obtain ⟨middle, rfl, rest⟩ | ⟨middle, rfl, -⟩ := List.append_eq_append_iff.mp (passed.symm.trans split)
      · cases middle with
        | nil => simp at between
        | cons first middle =>
          obtain ⟨rfl, tail⟩ := List.cons.inj rest
          exact ⟨middle, rfl, tail⟩
      · rw [List.length_append] at between
        omega
    obtain rfl := same
    have still : ¬ Replaced own (middle ++ [moment]) earlier := by
      rintro ⟨last, step, before, value, here, replacement⟩
      refine kept ⟨since ++ back :: last, step, before, value, ?_, replacement⟩
      rw [List.append_assoc, List.cons_append, here, List.append_assoc, List.cons_append]
    have then_ := (unchanged (run.up_to passed) rest late still).trans first
    exact Option.some.inj ((other.exports (run.up_to passed)).2.symm.trans then_)
  · subst object
    exact run.member_since split ((whole_always origin).1.exports r _ first) key

end

/-- A session middle two modules that ask for each other while they run. -/
def Setup.partners : Setup where
  config := {}
  resolver := .flat
  policy := .immediate
  sink := .silent
  files := [
    (⟨"mem:a"⟩, .mk none (some ["b"]) (.function [.get "b" none none, .value (.setMember "name" (.int 1))] none)),
    (⟨"mem:b"⟩, .mk none (some ["a"]) (.function [.get "a" none (some "a")] none))]

/-- The module `b` is given the interface of `a` while `a` is being compiled, and it shows what comes in later. -/
theorem partial_interfaces_final_partners :
    ∃ past m later moment earlier value, Run (fun _ => True) (.fresh .partners) past m ∧
      past = later ++ moment :: earlier ∧ Obtained earlier moment ⟨0⟩ value ∧
      moment.world.loader.status ⟨0⟩ = .compiling ∧ m.world.loader.status ⟨0⟩ = .compiled ∧
      ¬ Replaced ⟨0⟩ (later ++ [moment]) earlier ∧ (m.world.loader.record ⟨0⟩).exports = some value ∧
      (moment.world.memory.member? value "name").isNone = true ∧
      (m.world.memory.member? value "name").bind Value.int? = some 1 := by
  have fresh : Run (fun _ => True) (.fresh .partners) [] (.fresh .partners) := .start
  have asked : Run _ _ _ (Machine.run 22 (.asked .partners ["a"] "page" [])) :=
    (fresh.act (.useModules ["a"] "page" []) trivial).continued 22
  have stepped := Machine.step?_of_work (m := Machine.run 22 (.asked .partners ["a"] "page" [])) (by decide +kernel)
  have answered := asked.work stepped
  have run := (answered.work (Machine.step?_of_work (by decide +kernel))).continued 40
  have exported : ((Machine.run 22 (.asked .partners ["a"] "page" [])).world.loader.record ⟨0⟩).exports =
      some (.object ⟨0⟩) := Value.of_object? (by decide +kernel)
  have obtained (past : List Machine) : Obtained (_ :: past) _ ⟨0⟩ (.object ⟨0⟩) :=
    .at_once (by decide +kernel) (by decide +kernel) exported stepped
  have final := (partial_interfaces_final run rfl ⟨0⟩).2 _ (obtained _)
  refine ⟨_, _, _, _, _, _, run, rfl, obtained _, ?_, ?_, ?kept, (final ?kept).1, ?_, ?_⟩
  case kept => exact fun replaced => replaced.some (List.isEmpty_iff.mp (by decide +kernel))
  all_goals decide +kernel

end ModuleLoader
