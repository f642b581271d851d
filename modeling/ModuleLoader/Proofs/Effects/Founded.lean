import ModuleLoader.Proofs.Effects.Compiling

/-! How far on records have to be for work in progress to make sense. The main statements are
`World.exec_bears` and `Frame.founded`: each step leaves work that makes sense. -/
namespace ModuleLoader

open Loader (Sound Begins)

mutual

def Continuation.relies : Continuation → List (RecordId × Status)
  | .arrive _ r => [(r, .saved)]
  | .request _ receiver | .preload _ receiver | .gather _ receiver => receiver.relies
  | .call _ => []

def Receiver.relies : Receiver → List (RecordId × Status)
  | .host _ => []
  | .discard next => next.relies

end

def Site.relies (site : Site) : List (RecordId × Status) :=
  site.context.toList.map fun c => (c.record, .fetching)

def Frame.relies : Frame → List (RecordId × Status)
  | .script site _ | .conclude site _ | .completeRest site _ => site.relies
  | .load _ next | .resume next | .preload next => next.relies
  | .request _ _ receiver | .gather _ _ receiver | .collect _ _ receiver | .deliver receiver _ =>
    receiver.relies
  | .compile r | .runPatch r _ | .replaceInterface r | .applyPatches _ r | .answerExports r =>
    [(r, .fetching)]
  | .runFactory r _ | .finishCompile r => [(r, .compiling)]
  | .entries .. | .settled .. | .retrieved _ | .leaveFactory => []

/-- Records are as far on as they have to be. -/
def Loader.Bears (l : Loader) (needs : List (RecordId × Status)) : Prop :=
  ∀ need ∈ needs, need.2 ≤ l.status need.1

/-- So are the records that the host has kept, and those that loads in progress go on with. -/
structure World.Founded (w : World) : Prop where
  kept : ∀ {name r}, w.kept.get? name = some r → .fetching ≤ w.loader.status r
  waiting : ∀ {b next}, (w.loader.barrier b).onDone = some next → w.loader.Bears next.relies

theorem Loader.Bears.turn {w : World} (sound : Sound w.loader) {frame : Frame}
    (bears : w.loader.Bears frame.relies) : Turn w frame (frame.exec w).1 (frame.exec w).2 :=
  Frame.turn sound fun b r same => bears (r, .saved) (by simp [same, Frame.relies, Continuation.relies])

theorem Loader.Bears.mono {l l' : Loader} (rises : ∀ r, l.status r ≤ l'.status r)
    {needs : List (RecordId × Status)} (bears : l.Bears needs) : l'.Bears needs :=
  fun need member => Status.le_trans (bears need member) (rises need.1)

theorem Loader.Bears.nil (l : Loader) : l.Bears [] := List.forall_mem_nil _

/-- A record that has been requested has been made. -/
theorem Loader.Bears.known {l : Loader} {r : RecordId} (bears : l.Bears [(r, .fetching)]) :
    l.status r ≠ .unknown :=
  Status.ne_unknown_of_le (a := .fetching) (by decide) (bears (r, .fetching) (List.mem_singleton_self _))

theorem Loader.Bears.one {l : Loader} {r : RecordId} {s : Status} (far : s ≤ l.status r) :
    l.Bears [(r, s)] := List.forall_mem_singleton.mpr far

theorem Loader.Sound.requested {l : Loader} (sound : Sound l) {locator : Locator} {r : RecordId}
    (held : l.entry? locator = some r) : .fetching ≤ l.status r := by
  have known := sound.known held
  revert known
  cases l.status r <;> simp [Status.le_iff, Status.code]

namespace World

variable {w : World}

theorem find?_requested (sound : Sound w.loader) (founded : w.Founded) {site : Site}
    (bears : w.loader.Bears site.relies) {ref : RecordRef} {r : RecordId}
    (found : w.find? site ref = some r) : .fetching ≤ w.loader.status r := by
  cases ref with
  | kept name => exact founded.kept found
  | registered key => exact sound.requested found
  | own =>
    obtain ⟨c, here, rfl⟩ := Option.map_eq_some_iff.mp found
    exact bears (c.record, .fetching) (by simp [Site.relies, here])

theorem getDependency_bears (sound : Sound w.loader) (c : Context) (id : String) :
    ∀ f ∈ (w.getDependency c id).2, w.loader.Bears f.relies := by
  unfold getDependency
  dsimp only
  split
  · simp
  · split
    · simp
    · rename_i child held
      split
      · simp
      · simp
      · exact List.forall_mem_singleton.mpr (.one (sound.requested held))

theorem modify_bears (sound : Sound w.loader) (id : String) (body : Script) :
    ∀ f ∈ (w.modify id body).2, w.loader.Bears f.relies := by
  unfold modify
  split
  · simp
  · dsimp only
    split
    · rename_i r held
      split
      · intro f member
        simp only [List.mem_cons, List.not_mem_nil, or_false] at member
        obtain rfl | rfl := member <;> exact .one (sound.requested held)
      · simp
    · simp

theorem act_bears (sound : Sound w.loader) (founded : w.Founded) {site : Site}
    (bears : w.loader.Bears site.relies) (action : Action) :
    ∀ f ∈ (w.act site action).2, w.loader.Bears f.relies := by
  have conclude (frames : List Frame) (conclusion : Conclusion)
      (before : ∀ f ∈ frames, w.loader.Bears f.relies) :
      ∀ f ∈ frames ++ [.conclude site conclusion], w.loader.Bears f.relies := by
    exact List.forall_mem_append.mpr ⟨before, List.forall_mem_singleton.mpr bears⟩
  have one {frame : Frame} (needs : w.loader.Bears frame.relies) :
      ∀ f ∈ [frame], w.loader.Bears f.relies := List.forall_mem_singleton.mpr needs
  cases action with
  | value a =>
    simp only [act]
    generalize w.actOnValues site a = made
    obtain ⟨w', reply⟩ := made
    cases reply <;> simp
  | get id into key =>
    simp only [act]
    split
    · simp
    · exact conclude _ _ (getDependency_bears sound _ id)
  | giveBackDependency id =>
    simp only [act]
    split
    · simp
    · exact getDependency_bears sound _ id
  | loadAsync ids tag body =>
    simp only [act]
    split
    · simp
    · exact conclude _ _ (one (.nil _))
  | useModules | load => exact conclude _ _ (one (.nil _))
  | compile ref into =>
    simp only [act]
    split
    · simp
    · rename_i r found
      exact conclude [.compile r] _ (one (.one (find?_requested sound founded bears found)))
  | modify id body => exact conclude _ _ (modify_bears sound id body)
  | complete | completeNext =>
    simp only [act, completeTaken]
    split
    · exact one bears
    · split
      · exact conclude [.retrieved _] _ (one (.nil _))
      · exact one bears
  | completeAll =>
    simp only [act]
    split
    · exact one bears
    · simp
  | token index a =>
    simp only [act, actOnToken]
    split
    · simp
    · cases a with
      | complete => exact conclude [.retrieved _] _ (one (.nil _))
      | _ => simp
  | keep | setExports =>
    simp only [act]
    split <;> simp
  | _ => simp [act]

/-- The host keeps only records that it can name. -/
theorem act_kept (sound : Sound w.loader) (founded : w.Founded) {site : Site}
    (bears : w.loader.Bears site.relies) (action : Action) {name : String} {r : RecordId}
    (kept : (w.act site action).1.kept.get? name = some r) : .fetching ≤ w.loader.status r := by
  have before {w' : World} (same : w'.kept = w.kept) (kept : w'.kept.get? name = some r) :
      .fetching ≤ w.loader.status r := founded.kept (same ▸ kept)
  cases action with
  | value a =>
    refine before ?_ kept
    have same := (w.actOnValues_same site a).kept
    simp only [act]
    generalize w.actOnValues site a = made at *
    obtain ⟨w', reply⟩ := made
    cases reply <;> exact same
  | keep ref into =>
    simp only [act] at kept
    split at kept
    · exact before rfl kept
    · rename_i x found
      simp only [OrderedMap.get?_insert] at kept
      split at kept
      · cases kept
        exact find?_requested sound founded bears found
      · exact founded.kept kept
  | get | giveBackDependency =>
    refine before ?_ kept
    simp only [act, getDependency]
    split
    · rfl
    · split
      · rfl
      · split
        · rfl
        · split <;> rfl
  | loadAsync | compile | setExports | completeAll =>
    refine before ?_ kept
    simp only [act]
    split <;> rfl
  | modify =>
    refine before ?_ kept
    simp only [act, modify]
    split
    · rfl
    · split
      · split <;> rfl
      · rfl
  | complete | completeNext =>
    refine before ?_ kept
    simp only [act, completeTaken, takeQueued?, takeNext?]
    split
    · rfl
    · split
      · rename_i taken
        split at taken <;> cases taken
        rfl
      · rfl
  | token index a =>
    refine before ?_ kept
    simp only [act, actOnToken]
    split
    · rfl
    · cases a <;> rfl
  | _ => exact before rfl kept

theorem exec_kept (w : World) (frame : Frame) (other : ∀ site actions, frame ≠ .script site actions) :
    (frame.exec w).1.kept = w.kept := by
  have bound (w : World) (interfaces : List (Option Value)) := (w.bindArguments_same interfaces).kept
  have retrieved (w : World) (token : FetchToken) : (w.retrieve token).1.kept = w.kept := by
    unfold retrieve
    dsimp only
    split <;> rfl
  cases frame with
  | script site actions => exact absurd rfl (other site actions)
  | conclude site conclusion => exact (w.conclude_same site conclusion).kept
  | entries locators b =>
    cases locators with
    | nil => rfl
    | cons locator rest =>
      simp only [Frame.exec, enter]
      split
      · rfl
      · split
        · rfl
        · rfl
        · exact retrieved _ _
  | load =>
    simp only [Frame.exec, load]
    split <;> rfl
  | settled =>
    simp only [Frame.exec, settle]
    split <;> rfl
  | resume next =>
    cases next with
    | call callback => exact bound _ _
    | _ => rfl
  | preload =>
    simp only [Frame.exec, preload]
    split <;> rfl
  | gather locators =>
    cases locators with
    | nil => rfl
    | cons =>
      simp only [Frame.exec, gather]
      split <;> rfl
  | deliver receiver =>
    cases receiver with
    | host callback => exact bound _ _
    | discard => rfl
  | compile r =>
    obtain ⟨answer, same⟩ | ⟨_, _, _, _, _, kept, _⟩ | ⟨_, _, _, kept, _⟩ := w.compile_cases r
    · exact congrArg (·.1.kept) same
    · exact kept
    · exact kept
  | replaceInterface =>
    simp only [Frame.exec]
    split <;> rfl
  | completeRest =>
    simp only [Frame.exec]
    split
    · rename_i taken
      simp only [takeNext?] at taken
      split at taken <;> cases taken
      rfl
    · rfl
  | _ => rfl

/-- What goes on when the entries of a load have come together. -/
theorem arrive_bears {l : Loader} {b : BarrierId}
    (waiting : ∀ next, (w.loader.barrier b).onDone = some next → l.Bears next.relies)
    (loaded : Option RecordId) : ∀ f ∈ (w.arrive b loaded).2, l.Bears f.relies := by
  obtain ⟨-, -, frames⟩ | ⟨-, -, frames⟩ := (w.arrive_counted b loaded).1
  · intro f member
    simp only [frames, Option.mem_toList, Option.map_eq_some_iff] at member
    obtain ⟨next, waits, rfl⟩ := member
    exact waiting next waits
  · simp [frames]

theorem settle_bears (founded : w.Founded) (locator : Locator) (b : BarrierId) :
    ∀ f ∈ (w.settle locator b).2, w.loader.Bears f.relies := by
  have saved := w.loader.settledEntry_saved locator
  have barriers := ((w.loader.settledEntry_edits locator).quiet id).barriers
  unfold settle
  generalize w.loader.settledEntry locator = entry at *
  obtain ⟨l, entry⟩ := entry
  have waiting : ∀ next, (l.barrier b).onDone = some next → w.loader.Bears next.relies := by
    intro next waits
    refine founded.waiting (b := b) ?_
    rw [Loader.barrier, ← barriers]
    exact waits
  cases entry with
  | missing => exact arrive_bears (w := { w with loader := l }) waiting none
  | ready r => exact arrive_bears (w := { w with loader := l }) waiting (some r)
  | waits r dependencies => exact List.forall_mem_singleton.mpr (.one (saved r (.inr ⟨_, rfl⟩)))

theorem retrieve_bears (w : World) (token : FetchToken) (l : Loader) :
    ∀ f ∈ (w.retrieve token).2, l.Bears f.relies := by
  unfold retrieve
  dsimp only
  split <;> first | exact List.forall_mem_singleton.mpr (.nil l) | simp

theorem enter_bears (w : World) (locator : Locator) (b : BarrierId) (l : Loader) :
    ∀ f ∈ (w.enter locator b).2, l.Bears f.relies := by
  simp only [enter]
  split
  · exact List.forall_mem_singleton.mpr (.nil l)
  · split
    · exact List.forall_mem_singleton.mpr (.nil l)
    · simp
    · exact retrieve_bears _ _ l

/-- Only requested modules are compiled for what was asked for. -/
theorem gather_bears (sound : Sound w.loader) {locators : List (Option Locator)}
    {interfaces : List (Option Value)} {receiver : Receiver} (bears : w.loader.Bears receiver.relies) :
    ∀ f ∈ (w.gather interfaces receiver locators).2, w.loader.Bears f.relies := by
  cases locators with
  | nil => exact List.forall_mem_singleton.mpr bears
  | cons locator rest =>
    simp only [gather]
    split
    · rename_i r held
      obtain ⟨locator, -, held⟩ := Option.bind_eq_some_iff.mp held
      exact List.forall_mem_cons.mpr
        ⟨.one (sound.requested held), List.forall_mem_singleton.mpr bears⟩
    · exact List.forall_mem_singleton.mpr bears

/-- A compilation that begins is the only work that needs its record further on than before. -/
theorem compile_bears {r : RecordId} (requested : .fetching ≤ w.loader.status r) :
    ∀ f ∈ (w.compile r).2, (w.compile r).1.loader.Bears f.relies := by
  have compiling (begins : Begins w.loader r (w.compile r).1.loader) :
      .compiling ≤ (w.compile r).1.loader.status r := by
    have known := Status.ne_unknown_of_le (a := .fetching) (by decide) requested
    obtain ⟨interface, own⟩ := begins.own known
    rw [Loader.status, own]
    exact Status.le_refl _
  obtain ⟨answer, same⟩ | ⟨body, source, -, begins, -, -, frames⟩ | ⟨-, begins, -, -, frames⟩ :=
    w.compile_cases r
  · simp [same]
  · intro f member
    simp only [frames, List.mem_cons, List.not_mem_nil, or_false] at member
    obtain rfl | rfl | rfl | rfl := member
    · exact .one (compiling begins)
    · exact .one (Status.le_trans requested (begins.rises r))
    · exact .nil _
    · exact .one (compiling begins)
  · rw [frames]
    exact List.forall_mem_singleton.mpr (.one (compiling begins))

/-- The frames that one frame leaves are about records that are far enough on. -/
theorem exec_bears (sound : Sound w.loader) (founded : w.Founded) {frame : Frame}
    (bears : w.loader.Bears frame.relies) :
    ∀ f ∈ (frame.exec w).2, (frame.exec w).1.loader.Bears f.relies := by
  have rises := (bears.turn sound).rises
  -- All but a compilation that begins concerns records that are far enough on already.
  have before (needs : ∀ f ∈ (frame.exec w).2, w.loader.Bears f.relies) :
      ∀ f ∈ (frame.exec w).2, (frame.exec w).1.loader.Bears f.relies :=
    fun f member => (needs f member).mono rises
  cases frame with
  | script site actions =>
    cases actions with
    | nil => exact List.forall_mem_nil _
    | cons action rest =>
      have acted := act_bears sound founded bears action
      refine before ?_
      simp only [Frame.exec, runScript]
      split
      · exact acted
      · exact List.forall_mem_append.mpr ⟨acted, List.forall_mem_singleton.mpr bears⟩
  | load locators onDone =>
    refine before ?_
    simp only [Frame.exec, load]
    split
    · exact List.forall_mem_singleton.mpr bears
    · exact List.forall_mem_singleton.mpr (.nil _)
  | entries locators b =>
    cases locators with
    | nil => exact List.forall_mem_nil _
    | cons locator rest =>
      exact before (List.forall_mem_append.mpr
        ⟨w.enter_bears locator b _, List.forall_mem_singleton.mpr (.nil _)⟩)
  | settled locator b => exact before (settle_bears founded locator b)
  | resume next =>
    cases next with
    | arrive b r => exact before (arrive_bears (fun _ => founded.waiting) (some r))
    | request | preload | gather => exact before (List.forall_mem_singleton.mpr bears)
    | call callback => exact before (List.forall_mem_singleton.mpr (.nil _))
  | preload next =>
    refine before ?_
    simp only [Frame.exec, preload]
    split <;> exact List.forall_mem_singleton.mpr bears
  | gather locators interfaces receiver => exact before (gather_bears sound bears)
  | deliver receiver interfaces =>
    cases receiver with
    | host callback => exact before (List.forall_mem_singleton.mpr (.nil _))
    | discard next => exact before (List.forall_mem_singleton.mpr bears)
  | retrieved token => exact before (by simp [Frame.exec, finishFetch, Frame.relies, Loader.Bears])
  | compile r => exact compile_bears (bears (r, .fetching) (List.mem_singleton_self _))
  | runFactory r body =>
    have compiling : .compiling ≤ w.loader.status r := bears (r, .compiling) (List.mem_singleton_self _)
    exact before (List.forall_mem_singleton.mpr (.one (Status.le_trans (by decide) compiling)))
  | finishCompile r =>
    have compiling : .compiling ≤ w.loader.status r := bears (r, .compiling) (List.mem_singleton_self _)
    refine before fun f member => ?_
    simp only [Frame.exec, finishCompile, List.mem_append, List.mem_map, List.mem_singleton] at member
    obtain ⟨key, -, rfl⟩ | rfl := member <;> exact .one (Status.le_trans (by decide) compiling)
  | applyPatches key r =>
    refine before fun f member => ?_
    simp only [Frame.exec, applyPatches, List.mem_flatMap, List.mem_cons, List.not_mem_nil,
      or_false] at member
    obtain ⟨patch, -, rfl | rfl⟩ := member <;> exact bears
  | replaceInterface r =>
    simp only [Frame.exec]
    split <;> simp
  | completeRest site done =>
    refine before ?_
    simp only [Frame.exec]
    split
    · exact List.forall_mem_cons.mpr ⟨.nil _, List.forall_mem_singleton.mpr bears⟩
    · simp
  | request | collect | runPatch => exact before (List.forall_mem_singleton.mpr bears)
  | conclude | leaveFactory | answerExports => exact List.forall_mem_nil _

end World

/-- What the host has kept and what waits for loads stays founded. -/
theorem Frame.founded {w : World} (sound : Sound w.loader) (founded : w.Founded) {frame : Frame}
    (bears : w.loader.Bears frame.relies) : (frame.exec w).1.Founded := by
  have rises := (bears.turn sound).rises
  refine ⟨fun {name r} kept => ?_, fun {b next} waits => ?_⟩
  · refine Status.le_trans ?_ (rises r)
    by_cases scripted : ∃ site actions, frame = .script site actions
    · obtain ⟨site, actions, rfl⟩ := scripted
      cases actions with
      | nil => exact founded.kept kept
      | cons action rest =>
        have left : (w.act site action).1.kept.get? name = some r := by
          simp only [exec, World.runScript] at kept
          split at kept <;> exact kept
        exact World.act_kept sound founded bears action left
    · rw [World.exec_kept w frame fun site actions same => scripted ⟨site, actions, same⟩] at kept
      exact founded.kept kept
  · obtain before | ⟨wanted, rfl⟩ := (frame.effect sound).waiting waits
    · exact (founded.waiting before).mono rises
    · exact Loader.Bears.mono rises bears

/-- All work in progress is about records that are far enough on. -/
structure Machine.Founded (m : Machine) : Prop where
  world : m.world.Founded
  stack : ∀ f ∈ m.stack, m.world.loader.Bears f.relies

theorem Machine.Founded.step {w : World} {frame : Frame} {rest : List Frame} (sound : Sound w.loader)
    (founded : Machine.Founded ⟨w, frame :: rest⟩) :
    Machine.Founded ⟨(frame.exec w).1, (frame.exec w).2 ++ rest⟩ := by
  have bears := founded.stack frame (List.mem_cons_self ..)
  refine ⟨Frame.founded sound founded.world bears, List.forall_mem_append.mpr ⟨?_, ?_⟩⟩
  · exact World.exec_bears sound founded.world bears
  · exact fun f member => (founded.stack f (List.mem_cons_of_mem _ member)).mono (bears.turn sound).rises

theorem founded_always {host : Action → Prop} {setup : Setup} {past : List Machine} {m : Machine}
    (run : Run host (.fresh setup) past m) : m.Founded := by
  refine run.invariant (P := fun _ m => m.Founded) ?_ ?_ ?_
  · rw [Machine.fresh, World.start_bare]
    exact ⟨⟨fun kept => (by cases kept), fun waits => (by cases waits)⟩, List.forall_mem_nil _⟩
  · intro past w frame rest run founded
    exact founded.step run.sound
  · intro past w action _ _ founded
    exact ⟨founded.world, List.forall_mem_singleton.mpr (.nil _)⟩

end ModuleLoader
