import ModuleLoader.Proofs.Patches.Handling

/-! What replaces the interface of a module. From the moment at which its compilation begins, only a body that
gives something back and an action of the host put another value in its place; whatever is loaded, registered
or compiled besides leaves it alone. -/
namespace ModuleLoader

open Loader (Sound Shifts Loads Begins)

/-- The module whose interface a frame replaces, and the value that it puts in its place. -/
def Frame.replaces? (w : World) : Frame → Option (RecordId × Value)
  | .replaceInterface r => w.answer.map fun value => (r, value)
  | .script site (.setExports ref value :: _) => (w.find? site ref).map fun r => (r, (w.eval site value).2)
  | .compile r =>
    if w.loader.status r < .compiling ∧ w.loader.canCompile r = true then
      match (w.loader.record r).factory with
      | some (.value value) => some (r, value)
      | _ => none
    else none
  | _ => none

/-- A frame that replaces no interface replaces none that is there. -/
theorem Frame.silent {w : World} {frame : Frame} (none : frame.replaces? w = none) (r : RecordId) (value : Value)
    (replaces : frame.replaces? w = some (r, value)) : w.loader.status r < .compiling := by
  cases none.symm.trans replaces

/-- The frame that hands over what a body has given back. -/
def Frame.returns? : Frame → Option RecordId
  | .replaceInterface r => some r
  | _ => none

/-- The module whose body a frame is about to enter. -/
def Frame.body? : Frame → Option RecordId
  | .runFactory r _ | .runPatch r _ => some r
  | _ => none

namespace Loader

/-- What has begun to be compiled exports what it did. -/
def Exposes (l l' : Loader) : Prop :=
  ∀ r, .compiling ≤ l.status r → .compiling ≤ l'.status r ∧ (l'.record r).exports = (l.record r).exports

variable {l l' : Loader}

theorem Exposes.refl (l : Loader) : Exposes l l := fun _ late => ⟨late, rfl⟩

theorem Exposes.of_eq (same : l' = l) : Exposes l l' := same ▸ .refl l

theorem Exposes.of_records (records : l'.records = l.records) : Exposes l l' := by
  intro r late
  have record : l'.record r = l.record r := by rw [Loader.record, Loader.record, records]
  exact ⟨by rwa [status, record], by rw [record]⟩

theorem Exposes.trans {a b c : Loader} (ab : Exposes a b) (bc : Exposes b c) : Exposes a c := by
  intro r late
  obtain ⟨middle, same⟩ := ab r late
  obtain ⟨last, kept⟩ := bc r middle
  exact ⟨last, kept.trans same⟩

theorem Shifts.exposes (shifts : Shifts l l') : Exposes l l' := by
  intro r late
  have last := Status.le_trans late (shifts.rises r)
  exact ⟨last, (shifts.late last).2.2⟩

/-- A record is changed, and exports what it did. -/
theorem Exposes.of_update (l : Loader) {r : RecordId} {f : Record → Record}
    (rises : (l.record r).status ≤ (f (l.record r)).status)
    (exports : (f (l.record r)).exports = (l.record r).exports) : Exposes l (l.updateRecord r f) := by
  intro x late
  rw [status]
  obtain same | ⟨rfl, same⟩ := l.updateRecord_cases r f x <;> rw [same]
  · exact ⟨late, rfl⟩
  · exact ⟨Status.le_trans late rises, exports⟩

/-- Another module begins to be compiled. -/
theorem Begins.exposes {r : RecordId} (begins : Begins l r l') : Exposes l l' := by
  intro x late
  have other : x ≠ r := by
    rintro rfl
    exact Status.not_le.mpr begins.below late
  rw [status, begins.others x other]
  exact ⟨late, rfl⟩

end Loader

open Loader (Exposes)

/-- What a frame does about interfaces. -/
inductive Reveals (w : World) : Frame → World → List Frame → Prop where
  | aside {frame : Frame} {w' : World} {frames : List Frame}
      (silent : ∀ r value, frame.replaces? w = some (r, value) → w.loader.status r < .compiling)
      (exposes : Exposes w.loader w'.loader) (plain : ∀ f ∈ frames, f.returns? = none) :
      Reveals w frame w' frames
  /-- A module begins to be compiled, so it exports something new anyway. -/
  | began {w' : World} {frames : List Frame} (r : RecordId) (begins : Begins w.loader r w'.loader)
      (enters : (∀ f ∈ frames, f.returns? = none) ∨ ∃ body,
        frames = [.runFactory r body, .replaceInterface r, .leaveFactory, .finishCompile r]) :
      Reveals w (.compile r) w' frames
  /-- A body gives something back. -/
  | returned (r : RecordId) (value : Value) {w' : World} (answers : w.answer = some value)
      (loader : w'.loader = w.loader.setExports r value) : Reveals w (.replaceInterface r) w' []
  | set (site : Site) (ref : RecordRef) (value : Expr) (rest : Script) (r : RecordId) {w' : World}
      {frames : List Frame} (found : w.find? site ref = some r)
      (loader : w'.loader = w.loader.setExports r (w.eval site value).2)
      (plain : ∀ f ∈ frames, f.returns? = none) :
      Reveals w (.script site (.setExports ref value :: rest)) w' frames
  | patched (site : Site) (rest : Script) (id : String) (body : Script) (r : RecordId) (patch : Patch)
      {w' : World} {frames : List Frame} (loader : w'.loader = w.loader)
      (plain : ∀ f ∈ frames, f.returns? = none) :
      Reveals w (.script site (.modify id body :: rest)) w' (.runPatch r patch :: .replaceInterface r :: frames)
  | taken (key : Locator) (r : RecordId) :
      Reveals w (.applyPatches key r) (w.applyPatches key r).1 (w.applyPatches key r).2

namespace World

variable {w : World}

theorem plain_nil : ∀ f ∈ ([] : List Frame), f.returns? = none := List.forall_mem_nil _

theorem plain_one {f : Frame} (plain : f.returns? = none) : ∀ g ∈ [f], g.returns? = none :=
  List.forall_mem_singleton.mpr plain

theorem getDependency_exposes (w : World) (c : Context) (id : String) :
    Exposes w.loader (w.getDependency c id).1.loader ∧ ∀ f ∈ (w.getDependency c id).2, f.returns? = none := by
  unfold getDependency
  dsimp only
  split
  · exact ⟨.refl _, plain_nil⟩
  · split
    · exact ⟨.refl _, plain_nil⟩
    · split
      · exact ⟨.refl _, plain_nil⟩
      · exact ⟨.refl _, plain_nil⟩
      · exact ⟨.of_update _ (Status.le_refl _) rfl, plain_one rfl⟩

theorem completeTaken_exposes (sound : Sound w.loader) (site : Site) (action : String)
    (taken : Option (World × FetchToken)) (same : ∀ w' token, taken = some (w', token) → w'.loader = w.loader) :
    Exposes w.loader (w.completeTaken site action taken).1.loader ∧
      ∀ f ∈ (w.completeTaken site action taken).2, f.returns? = none := by
  unfold completeTaken
  split
  · exact ⟨.refl _, plain_one rfl⟩
  · split
    · rename_i w' token
      have still := same w' token rfl
      refine ⟨(Exposes.of_eq still).trans (evaluate_loads (still ▸ sound) _).toShifts.exposes, ?_⟩
      exact List.forall_mem_cons.mpr ⟨rfl, plain_one rfl⟩
    · exact ⟨.refl _, plain_one rfl⟩

theorem actOnToken_exposes (sound : Sound w.loader) (site : Site) (index : Nat) (action : TokenAction) :
    Exposes w.loader (w.actOnToken site index action).1.loader ∧
      ∀ f ∈ (w.actOnToken site index action).2, f.returns? = none := by
  unfold actOnToken
  split
  · exact ⟨.refl _, plain_nil⟩
  · cases action with
    | look => exact ⟨.refl _, plain_nil⟩
    | define draft => exact ⟨(Loader.register_loads sound _ _).toShifts.exposes, plain_nil⟩
    | defineDerived draft => exact ⟨(Loader.defineDerived_loads sound _ _).toShifts.exposes, plain_nil⟩
    | complete => exact ⟨.refl _, List.forall_mem_cons.mpr ⟨rfl, plain_one rfl⟩⟩
    | abandon => exact ⟨(Loader.emit_loads _ _).toShifts.exposes, plain_nil⟩

/-- No action but two has to do with interfaces of modules that have begun to be compiled. -/
theorem act_exposes (sound : Sound w.loader) (site : Site) {action : Action}
    (unset : ∀ ref value, action ≠ .setExports ref value) (unmodified : ∀ id body, action ≠ .modify id body) :
    Exposes w.loader (w.act site action).1.loader ∧ ∀ f ∈ (w.act site action).2, f.returns? = none := by
  have still {frames : List Frame} (plain : ∀ f ∈ frames, f.returns? = none) :
      Exposes w.loader w.loader ∧ ∀ f ∈ frames, f.returns? = none := ⟨.refl _, plain⟩
  have pair {first last : Frame} (one : first.returns? = none) (other : last.returns? = none) :
      ∀ f ∈ [first, last], f.returns? = none := List.forall_mem_cons.mpr ⟨one, plain_one other⟩
  cases action with
  | value a =>
    have same := (w.actOnValues_same site a).loader
    simp only [act]
    generalize w.actOnValues site a = made at *
    obtain ⟨w', reply⟩ := made
    cases reply <;> exact ⟨.of_eq same, plain_nil⟩
  | query | describe | unknown | giveBack | addFile => exact still plain_nil
  | get id into key =>
    simp only [act]
    split
    · exact still plain_nil
    · obtain ⟨exposes, plain⟩ := w.getDependency_exposes _ id
      exact ⟨exposes, List.forall_mem_append.mpr ⟨plain, plain_one rfl⟩⟩
  | giveBackDependency id =>
    simp only [act]
    split
    · exact still plain_nil
    · exact w.getDependency_exposes _ id
  | loadAsync ids tag body =>
    simp only [act]
    split
    · exact still plain_nil
    · exact still (pair rfl rfl)
  | useModules | load => exact still (pair rfl rfl)
  | compile ref into =>
    simp only [act]
    split
    · exact still plain_nil
    · exact still (pair rfl rfl)
  | define draft => exact ⟨(Loader.register_loads sound _ _).toShifts.exposes, plain_nil⟩
  | defineDerived draft derived =>
    exact ⟨(Loader.defineDerived_loads sound _ _).toShifts.exposes, plain_nil⟩
  | modify id body => exact absurd rfl (unmodified id body)
  | preload | remove | clearDiagnostics => exact ⟨.of_records rfl, plain_nil⟩
  | keep ref into =>
    simp only [act]
    split <;> exact still plain_nil
  | setExports ref value => exact absurd rfl (unset ref value)
  | complete resource =>
    exact completeTaken_exposes sound site _ _ fun _ _ taken => (takeQueued?_spec taken).loader
  | completeNext => exact completeTaken_exposes sound site _ _ fun _ _ taken => (takeNext?_spec taken).loader
  | completeAll =>
    simp only [act]
    split
    · exact still (plain_one rfl)
    · exact still plain_nil
  | token index a => exact actOnToken_exposes sound site index a
  | report => exact ⟨(Loader.emit_loads _ _).toShifts.exposes, plain_nil⟩

theorem modify_reveals (site : Site) (id : String) (body rest : Script) {below : List Frame}
    (plain : ∀ f ∈ below, f.returns? = none) :
    Reveals w (.script site (.modify id body :: rest)) (w.modify id body).1 ((w.modify id body).2 ++ below) := by
  unfold modify
  split
  · exact .aside (Frame.silent rfl) (Loader.emit_loads _ _).toShifts.exposes plain
  · dsimp only
    split
    · split
      · exact .patched site rest id body _ _ rfl plain
      · exact .aside (Frame.silent rfl) (.of_records rfl) plain
    · exact .aside (Frame.silent rfl) (.of_records rfl) plain

theorem runScript_reveals (sound : Sound w.loader) (site : Site) (actions : Script) :
    Reveals w (.script site actions) (w.runScript site actions).1 (w.runScript site actions).2 := by
  cases actions with
  | nil => exact .aside (Frame.silent rfl) (.refl _) plain_nil
  | cons action rest =>
    by_cases modifies : ∃ id body, action = .modify id body
    · obtain ⟨id, body, rfl⟩ := modifies
      have exec : w.runScript site (.modify id body :: rest) = ((w.modify id body).1,
          (w.modify id body).2 ++ [.conclude site (.reply "modify" (.text "returned")), .script site rest]) :=
        exec_modify
      rw [exec]
      exact modify_reveals site id body rest (List.forall_mem_cons.mpr ⟨rfl, plain_one rfl⟩)
    · by_cases sets : ∃ ref value, action = .setExports ref value
      · obtain ⟨ref, value, rfl⟩ := sets
        cases found : w.find? site ref with
        | none =>
          refine .aside (fun r v replaces => ?_) ?_ ?_
          · simp [Frame.replaces?, found] at replaces
          · simp only [runScript, act, found, endsScript]
            exact .refl _
          · simp only [runScript, act, found, endsScript]
            exact plain_one rfl
        | some r =>
          refine .set site ref value rest r found ?_ ?_ <;> simp only [runScript, act, found, endsScript]
          · rfl
          · exact plain_one rfl
      · obtain ⟨exposes, plain⟩ := act_exposes sound site (fun ref value same => sets ⟨ref, value, same⟩)
          fun id body same => modifies ⟨id, body, same⟩
        have silent : (Frame.script site (action :: rest)).replaces? w = none := by
          cases action <;> first | rfl | exact absurd ⟨_, _, rfl⟩ sets
        refine .aside (Frame.silent silent) ?_ ?_ <;> simp only [runScript] <;> split
        · exact exposes
        · exact exposes
        · exact plain
        · exact List.forall_mem_append.mpr ⟨plain, plain_one rfl⟩

theorem compile_reveals (w : World) (r : RecordId) : Reveals w (.compile r) (w.compile r).1 (w.compile r).2 := by
  obtain ⟨answer, same⟩ | ⟨body, source, factory, begins, -, -, frames⟩ | ⟨-, begins, -, -, frames⟩ :=
    w.compile_cases r
  · rw [same]
    refine .aside (fun x value replaces => ?_) (.refl _) plain_nil
    simp only [Frame.replaces?] at replaces
    split at replaces
    · rename_i idle
      split at replaces
      · cases replaces
        exact idle.1
      · cases replaces
    · cases replaces
  · exact .began r begins (.inr ⟨body, frames⟩)
  · exact .began r begins (.inl (frames ▸ plain_one rfl))

theorem retrieve_exposes (sound : Sound w.loader) (token : FetchToken) :
    Exposes w.loader (w.retrieve token).1.loader := by
  have derived : Shifts w.loader (w.evaluateDerived token).loader :=
    (Loader.foldl_loads_of_sound (fun _ registration sound => Loader.defineDerived_loads sound registration _)
      (fun l registration => l.defineDerived_orderly registration _) sound _).toShifts
  unfold retrieve
  dsimp only
  split
  · exact (evaluate_loads sound _).toShifts.exposes
  · exact .refl _
  · exact .refl _
  · exact derived.exposes
  · exact .refl _
  · exact (Loader.emit_loads _ _).toShifts.exposes

theorem enter_exposes (sound : Sound w.loader) (locator : Locator) (b : BarrierId) :
    Exposes w.loader (w.enter locator b).1.loader := by
  have made := (w.loader.ensure_shifts locator).exposes
  have orderly := (w.loader.ensure_orderly locator (s := .fetching) (by decide) sound).1
  unfold enter
  generalize w.loader.ensure locator .fetching = ensured at *
  obtain ⟨l, r⟩ := ensured
  dsimp only at *
  have awaited := made.trans (l.awaitResource_loads ⟨locator, b⟩).toShifts.exposes
  split
  · exact made
  · split
    · exact awaited
    · exact awaited
    · refine awaited.trans (retrieve_exposes (w := { w with loader := _ }) ?_ _)
      exact (l.awaitResource_orderly ⟨locator, b⟩ orderly).1

end World

/-- Whatever the next frame is, it does one of these things about interfaces. -/
theorem Frame.reveals {w : World} {frame : Frame} (sound : Sound w.loader)
    (saved : ∀ b r, frame = .resume (.arrive b r) → .saved ≤ w.loader.status r) :
    Reveals w frame (frame.exec w).1 (frame.exec w).2 := by
  have arrives (w : World) (b : BarrierId) (loaded : Option RecordId) :
      ∀ f ∈ (w.arrive b loaded).2, f.returns? = none := by
    intro f member
    obtain ⟨next, -, rfl⟩ := Option.map_eq_some_iff.mp (Option.mem_toList.mp member)
    rfl
  cases frame with
  | script site actions => exact World.runScript_reveals sound site actions
  | conclude site conclusion =>
    exact .aside (Frame.silent rfl) (.of_eq (w.conclude_same site conclusion).loader) World.plain_nil
  | load locators onDone =>
    simp only [exec, World.load]
    split
    · exact .aside (Frame.silent rfl) (.refl _) (World.plain_one rfl)
    · exact .aside (Frame.silent rfl) (.of_records rfl) (World.plain_one rfl)
  | entries locators b =>
    cases locators with
    | nil => exact .aside (Frame.silent rfl) (.refl _) World.plain_nil
    | cons locator rest =>
      refine .aside (Frame.silent rfl) (World.enter_exposes sound locator b) ?_
      refine List.forall_mem_append.mpr ⟨fun f member => ?_, World.plain_one rfl⟩
      obtain rfl | ⟨token, rfl⟩ := w.enter_frames locator b _ member <;> rfl
  | settled locator b =>
    refine .aside (Frame.silent rfl) (w.settle_loads locator b).toShifts.exposes ?_
    simp only [exec, World.settle]
    split
    · exact arrives _ b none
    · exact arrives _ b (some _)
    · exact World.plain_one rfl
  | resume next =>
    cases next with
    | arrive b r =>
      have loaded : ∀ x, some r = some x → .saved ≤ w.loader.status x :=
        fun x here => saved b x (by rw [Option.some.inj here])
      exact .aside (Frame.silent rfl) (Loader.arrive_loads loaded b).toShifts.exposes (arrives w b (some r))
    | request | preload | gather => exact .aside (Frame.silent rfl) (.refl _) (World.plain_one rfl)
    | call callback =>
      exact .aside (Frame.silent rfl) (.of_eq (World.bindArguments_same ..).loader) (World.plain_one rfl)
  | request | collect => exact .aside (Frame.silent rfl) (.refl _) (World.plain_one rfl)
  | preload next =>
    simp only [exec, World.preload]
    split
    · exact .aside (Frame.silent rfl) (.refl _) (World.plain_one rfl)
    · exact .aside (Frame.silent rfl) (.of_records rfl) (World.plain_one rfl)
  | gather locators interfaces receiver =>
    cases locators with
    | nil => exact .aside (Frame.silent rfl) (.refl _) (World.plain_one rfl)
    | cons locator rest =>
      simp only [exec, World.gather]
      split
      · exact .aside (Frame.silent rfl) (.refl _) (List.forall_mem_cons.mpr ⟨rfl, World.plain_one rfl⟩)
      · exact .aside (Frame.silent rfl) (.refl _) (World.plain_one rfl)
  | deliver receiver interfaces =>
    cases receiver with
    | host callback =>
      exact .aside (Frame.silent rfl) (.of_eq (World.bindArguments_same ..).loader) (World.plain_one rfl)
    | discard next => exact .aside (Frame.silent rfl) (.refl _) (World.plain_one rfl)
  | retrieved token =>
    refine .aside (Frame.silent rfl) (Loader.finishFetch_loads sound token).toShifts.exposes ?_
    simp [exec, World.finishFetch, returns?]
  | compile r => exact w.compile_reveals r
  | runFactory | runPatch => exact .aside (Frame.silent rfl) (.refl _) (World.plain_one rfl)
  | replaceInterface r =>
    cases answers : w.answer with
    | none =>
      simp only [exec, answers]
      refine .aside (fun x value replaces => ?_) (.refl _) World.plain_nil
      simp [replaces?, answers] at replaces
    | some value =>
      simp only [exec, answers]
      exact .returned r value answers rfl
  | leaveFactory => exact .aside (Frame.silent rfl) (.of_records rfl) World.plain_nil
  | finishCompile r =>
    refine .aside (Frame.silent rfl) ?_ ?_
    · exact .trans (.of_update _ (Status.le_compiled _) rfl) (.of_records rfl)
    · intro f member
      simp only [exec, World.finishCompile, List.mem_append, List.mem_map, List.mem_singleton] at member
      obtain ⟨key, -, rfl⟩ | rfl := member <;> rfl
  | applyPatches key r => exact .taken key r
  | answerExports r => exact .aside (Frame.silent rfl) (.refl _) World.plain_nil
  | completeRest site done =>
    simp only [exec]
    split
    · rename_i w' token taken
      have same := (World.takeNext?_spec taken).loader
      refine .aside (Frame.silent rfl) ?_ (List.forall_mem_cons.mpr ⟨rfl, World.plain_one rfl⟩)
      exact (Exposes.of_eq same).trans (World.evaluate_loads (same ▸ sound) _).toShifts.exposes
    · exact .aside (Frame.silent rfl) (.refl _) World.plain_nil

end ModuleLoader
