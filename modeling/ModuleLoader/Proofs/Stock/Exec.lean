import ModuleLoader.Proofs.Effects.Deeds
import ModuleLoader.Proofs.Effects.Entering
import ModuleLoader.Proofs.Stock.Loading

/-! Nothing that a frame does adds to what is to be executed. What a frame executes, and what the loader is
asked to do in it, is used up. -/
namespace ModuleLoader

/-- Does the fetcher read the files of a resource as soon as it is asked for it? -/
def FetchPolicy.readsAtOnce : FetchPolicy → Bool
  | .immediate | .derived => true
  | .barren | .queued | .manual | .forgetful => false

namespace World

/-- The resource whose files a frame reads. -/
def reads? (w : World) : Frame → Option PhysicalId
  | .entries (locator :: _) b =>
    if w.fetcher.policy.readsAtOnce then (w.startedBy? locator b).map FetchToken.resource else none
  | frame => (w.taken? frame).map fun taken => taken.2.resource

/-- How many registrations a frame reads. -/
def reading (w : World) (frame : Frame) : Nat :=
  ((w.reads? frame).map fun p => (w.fetcher.registrations p).length).getD 0

theorem taken?_same {w w' : World} {frame : Frame} {token : FetchToken}
    (taken : w.taken? frame = some (w', token)) :
    w'.loader = w.loader ∧ w'.fetcher.files = w.fetcher.files := by
  have next (taken : w.takeNext? = some (w', token)) :
      w'.loader = w.loader ∧ w'.fetcher.files = w.fetcher.files := by
    unfold takeNext? at taken
    split at taken <;> cases taken
    exact ⟨rfl, rfl⟩
  unfold taken? at taken
  split at taken
  · split at taken
    · unfold takeQueued? at taken
      split at taken <;> cases taken
      exact ⟨rfl, rfl⟩
    · cases taken
  · split at taken
    · exact next taken
    · cases taken
  · exact next taken
  · cases taken

end World

/-- What is read is not to be read again. -/
structure Consumes (unread unread' : PhysicalId → Bool) (read : Option PhysicalId) : Prop where
  fewer : ∀ p, unread' p = true → unread p = true
  read : ∀ p, read = some p → unread p = true ∧ unread' p = false

namespace Scale

variable (σ : Scale) {unread unread' : PhysicalId → Bool} {read : Option PhysicalId}

/-- What a world has still to execute, files that have not been read yet among it. -/
def world (unread : PhysicalId → Bool) (w : World) : Nat := σ.loader w.loader + σ.files unread w.fetcher.files

/-- What is used up for good: an action that is executed, or what the loader was asked to do. -/
def fee (w : World) : Frame → Nat
  | .script _ (action :: rest) => σ.step (action :: rest)
  | .request .. => σ.unit
  | .preload _ => if w.loader.preloads = [] then 0 else σ.unit
  | .applyPatches key _ => σ.unit * (w.loader.takePatches key).2.length
  | .retrieved _ => if w.loader.anonymous.isSome then σ.unit else 0
  | .entries locators b => σ.unit * w.reading (.entries locators b)
  | .completeRest site done => σ.unit * w.reading (.completeRest site done)
  | _ => 0

/-! Files. -/

theorem files_fewer (consumes : Consumes unread unread' read) (table : List (PhysicalId × Registration)) :
    σ.files unread' table ≤ σ.files unread table := by
  refine List.sum_le_sum fun file _ => ?_
  by_cases later : unread' file.1 = true
  · rw [if_pos later, if_pos (consumes.fewer _ later)]
  · rw [if_neg later]
    exact Nat.zero_le _

theorem files_read {p : PhysicalId} (consumes : Consumes unread unread' (some p)) (f : Fetcher) :
    σ.files unread' f.files + ((f.registrations p).map σ.registration).sum ≤ σ.files unread f.files := by
  obtain ⟨before, after⟩ := consumes.read p rfl
  unfold Fetcher.registrations
  generalize f.files = table
  induction table with
  | nil => exact Nat.le_refl _
  | cons file table ih =>
    have fewer := consumes.fewer file.1
    simp only [files, List.map_cons, List.sum_cons, List.filterMap_cons] at ih ⊢
    by_cases here : file.1 = p
    · simp only [here, before, after, List.map_cons, List.sum_cons, Bool.false_eq_true, if_true, if_false]
      omega
    · simp only [if_neg here]
      have less : (if unread' file.1 then σ.registration file.2 else 0) ≤
          if unread file.1 then σ.registration file.2 else 0 := by
        by_cases later : unread' file.1 = true
        · rw [if_pos later, if_pos (fewer later)]
        · rw [if_neg later]
          exact Nat.zero_le _
      omega

theorem files_added (consumes : Consumes unread unread' read) (table : List (PhysicalId × Registration))
    (p : PhysicalId) (registration : Registration) :
    σ.files unread' (table ++ [(p, registration)]) ≤ σ.files unread table + σ.registration registration := by
  have fewer := σ.files_fewer consumes table
  have last : σ.files unread' [(p, registration)] ≤ σ.registration registration := by
    simp only [files, List.map_cons, List.map_nil, List.sum_cons, List.sum_nil, Nat.add_zero]
    split
    · exact Nat.le_refl _
    · exact Nat.zero_le _
  simp only [files, List.map_append, List.sum_append] at *
  omega

/-! Worlds. -/

theorem frames_free {f : Frame} (free : σ.frame f = 0) : σ.frames [f] = 0 := by
  rw [frames_cons, free]
  rfl

theorem frames_map_free {α : Type} {f : α → Frame} (free : ∀ a, σ.frame (f a) = 0) (as : List α) :
    σ.frames (as.map f) = 0 := by
  induction as with
  | nil => rfl
  | cons a as ih => rw [List.map_cons, frames_cons, free, ih]

theorem world_fewer (consumes : Consumes unread unread' read) {w w' : World}
    (loader : σ.loader w'.loader ≤ σ.loader w.loader) (files : w'.fetcher.files = w.fetcher.files) :
    σ.world unread' w' ≤ σ.world unread w := by
  rw [world, files]
  exact Nat.add_le_add loader (σ.files_fewer consumes _)

theorem world_same (consumes : Consumes unread unread' read) {w w' : World}
    (loader : w'.loader = w.loader) (files : w'.fetcher.files = w.fetcher.files) :
    σ.world unread' w' ≤ σ.world unread w :=
  σ.world_fewer consumes (Nat.le_of_eq (congrArg σ.loader loader)) files

theorem world_draft (consumes : Consumes unread unread' read) (w : World) (site : Site) (draft : Draft)
    {w' : World} (files : w'.fetcher.files = w.fetcher.files)
    (loader : σ.loader w'.loader + σ.unit ≤
      σ.loader w.loader + σ.registration (w.evalDraft site draft).2) :
    σ.world unread' w' ≤ σ.world unread w + σ.draft draft := by
  have fewer := σ.files_fewer consumes w.fetcher.files
  have cost : σ.registration (w.evalDraft site draft).2 = σ.draft draft := σ.eval_draft _ _ draft
  rw [world, world, files]
  omega

theorem world_evaluate {p : PhysicalId} (consumes : Consumes unread unread' (some p)) (w : World) :
    σ.world unread' (w.evaluate p) + σ.unit * (w.fetcher.registrations p).length ≤ σ.world unread w := by
  have registered := σ.loader_foldl w.loader (fun l registration => σ.loader_register l registration none)
    (w.fetcher.registrations p)
  have files := σ.files_read consumes w.fetcher
  simp only [world, World.evaluate]
  change σ.loader (List.foldl Loader.define _ _) + _ ≤ _ at registered
  omega

theorem world_retrieve (w : World) {token : FetchToken}
    (consumes : Consumes unread unread'
      (if w.fetcher.policy.readsAtOnce then some token.resource else none)) :
    σ.frames (w.retrieve token).2 + σ.world unread' (w.retrieve token).1 +
        σ.unit *
          (if w.fetcher.policy.readsAtOnce then (w.fetcher.registrations token.resource).length else 0) ≤
      σ.world unread w := by
  unfold World.retrieve
  cases policy : w.fetcher.policy with
  | immediate =>
    rw [policy] at consumes
    have evaluated := σ.world_evaluate consumes { w with
      fetcher := w.fetcher.logRequest ⟨token.resource, w.loader.config.charset⟩ }
    rw [σ.frames_free rfl, Nat.zero_add]
    exact evaluated
  | derived =>
    rw [policy] at consumes
    have registered := σ.loader_foldl w.loader
      (fun l registration => σ.loader_defineDerived l registration (some token.locator))
      (w.fetcher.registrations token.resource)
    have files := σ.files_read consumes w.fetcher
    simp only [world, World.evaluateDerived, FetchPolicy.readsAtOnce, if_true]
    rw [σ.frames_free rfl, Nat.zero_add]
    change σ.loader (List.foldl _ _ (w.fetcher.registrations token.resource)) +
      σ.files _ w.fetcher.files + _ ≤ _
    omega
  | barren =>
    simp only [FetchPolicy.readsAtOnce, Bool.false_eq_true, if_false, Nat.mul_zero, Nat.add_zero,
      σ.frames_free (f := .retrieved token) rfl, Nat.zero_add]
    exact σ.world_same consumes rfl rfl
  | queued | manual =>
    simp only [FetchPolicy.readsAtOnce, Bool.false_eq_true, if_false, Nat.mul_zero, Nat.add_zero, frames_nil,
      Nat.zero_add]
    exact σ.world_same consumes rfl rfl
  | forgetful =>
    simp only [FetchPolicy.readsAtOnce, Bool.false_eq_true, if_false, Nat.mul_zero, Nat.add_zero, frames_nil,
      Nat.zero_add]
    exact σ.world_fewer consumes (Nat.le_of_eq (σ.loader_report w.loader _)) rfl

theorem loader_asking (w : World) (locator : Locator) (b : BarrierId) :
    σ.loader (w.asking locator b) ≤ σ.loader w.loader := by
  rw [World.asking]
  exact σ.loader_edits (((w.loader.ensure_edits locator (s := .fetching) (by decide)).free).trans
    (Loader.awaitResource_edits _ _)) fun _ => id

theorem world_enter {w : World} (sound : Loader.Sound w.loader) {locator : Locator} {later : List Locator}
    {b : BarrierId} (consumes : Consumes unread unread' (w.reads? (.entries (locator :: later) b))) :
    σ.frames (w.enter locator b).2 + σ.world unread' (w.enter locator b).1 +
        σ.unit * w.reading (.entries (locator :: later) b) ≤ σ.world unread w := by
  have enters := World.enters sound locator b
  have asked := σ.loader_asking w locator b
  have still {l : Loader} (fewer : σ.loader l ≤ σ.loader w.loader) :
      σ.world unread' { w with loader := l } ≤ σ.world unread w := σ.world_fewer consumes fewer rfl
  have silent : σ.unit * (Option.map (fun p => (w.fetcher.registrations p).length)
      (if w.fetcher.policy.readsAtOnce then Option.map FetchToken.resource none else none)).getD 0 = 0 := by
    split <;> rfl
  unfold World.reading
  simp only [World.reads?] at consumes ⊢
  generalize w.startedBy? locator b = start, w.enter locator b = entered at *
  cases enters with
  | landed =>
    rw [silent, σ.frames_free rfl, Nat.zero_add, Nat.add_zero]
    exact still (σ.loader_edits (w.loader.ensure_edits locator (by decide)) fun _ => id)
  | shared =>
    rw [silent, σ.frames_free rfl, Nat.zero_add, Nat.add_zero]
    exact still asked
  | joined =>
    rw [silent, frames_nil, Nat.zero_add, Nat.add_zero]
    exact still asked
  | @started token =>
    have retrieved := σ.world_retrieve { w with loader := w.asking locator b } consumes
    have same : (Option.map (fun p => (w.fetcher.registrations p).length)
        (if w.fetcher.policy.readsAtOnce then Option.map FetchToken.resource (some token) else none)).getD 0 =
        if w.fetcher.policy.readsAtOnce then (w.fetcher.registrations token.resource).length else 0 := by
      split <;> rfl
    rw [same]
    exact Nat.le_trans retrieved (Nat.add_le_add_right asked _)

/-! Actions. -/

theorem world_completeTaken (w : World) (site : Site) (action : String) {taken : Option (World × FetchToken)}
    (same : ∀ w' token, taken = some (w', token) →
      w'.loader = w.loader ∧ w'.fetcher.files = w.fetcher.files)
    (consumes : Consumes unread unread'
      ((if w.fetcher.policy = .queued then taken else none).map fun next => next.2.resource)) :
    σ.frames (w.completeTaken site action taken).2 + σ.world unread' (w.completeTaken site action taken).1 ≤
      σ.world unread w := by
  have free (reply : Reply) : σ.frames [.conclude site (.reply action reply)] = 0 := σ.frames_free rfl
  unfold World.completeTaken
  split
  · rw [free, Nat.zero_add]
    exact σ.world_fewer consumes (Nat.le_refl _) rfl
  · rename_i queued
    rw [if_pos (Decidable.not_not.mp queued)] at consumes
    split
    · rename_i w' token
      obtain ⟨loader, files⟩ := same w' token rfl
      have evaluated := σ.world_evaluate (p := token.resource) consumes w'
      have before : σ.world unread w' = σ.world unread w := by rw [world, world, loader, files]
      simp only [frames_cons, frames_nil, frame]
      omega
    · rw [free, Nat.zero_add]
      exact σ.world_fewer consumes (Nat.le_refl _) rfl

theorem world_getDependency (consumes : Consumes unread unread' read) (w : World) (c : Context)
    (id : String) :
    σ.frames (w.getDependency c id).2 + σ.world unread' (w.getDependency c id).1 ≤ σ.world unread w := by
  have same {answer : Option Value} : σ.world unread' { w with answer } ≤ σ.world unread w :=
    σ.world_same consumes rfl rfl
  unfold World.getDependency
  dsimp only
  split
  · exact Nat.le_trans (Nat.le_of_eq (Nat.zero_add _)) same
  · split
    · exact Nat.le_trans (Nat.le_of_eq (Nat.zero_add _)) same
    · split
      · exact Nat.le_trans (Nat.le_of_eq (Nat.zero_add _)) same
      · exact Nat.le_trans (Nat.le_of_eq (Nat.zero_add _)) same
      · rw [σ.frames_free rfl, Nat.zero_add]
        exact σ.world_fewer consumes (σ.loader_setInitiator w.loader _ _) rfl

theorem world_modify (consumes : Consumes unread unread' read) (w : World) (id : String) (body : Script) :
    σ.frames (w.modify id body).2 + σ.world unread' (w.modify id body).1 ≤
      σ.world unread w + (σ.unit + σ.script body) := by
  have fewer := σ.files_fewer consumes w.fetcher.files
  have queued (target : Locator) : σ.frames [] + σ.world unread' { (w.newPatch target body).1 with
      loader := w.loader.queuePatch (w.newPatch target body).2 } ≤
        σ.world unread w + (σ.unit + σ.script body) := by
    have patch : σ.patch (w.newPatch target body).2 = σ.unit + σ.script body := rfl
    have files : (w.newPatch target body).1.fetcher.files = w.fetcher.files := rfl
    simp only [frames_nil, world, loader_queuePatch, patch, files]
    omega
  unfold World.modify
  split
  · rw [frames_nil, Nat.zero_add]
    refine Nat.le_trans (σ.world_fewer (w := w) consumes (Nat.le_of_eq ?_) rfl) (Nat.le_add_right _ _)
    exact σ.loader_report w.loader _
  · rename_i target _
    dsimp only
    split
    · split
      · have patch : σ.script (w.newPatch target body).2.body = σ.script body := rfl
        have now : σ.world unread' (w.newPatch target body).1 ≤ σ.world unread w :=
          σ.world_same consumes rfl rfl
        simp only [frames_cons, frames_nil, frame, patch]
        omega
      · exact queued target
    · exact queued target

theorem world_actOnToken (consumes : Consumes unread unread' read) (w : World) (site : Site) (index : Nat)
    (action : TokenAction) :
    σ.frames (w.actOnToken site index action).2 + σ.world unread' (w.actOnToken site index action).1 ≤
      σ.world unread w + σ.tokenAction action := by
  have same {w' : World} (loader : w'.loader = w.loader) (files : w'.fetcher.files = w.fetcher.files) :
      σ.frames [] + σ.world unread' w' ≤ σ.world unread w + σ.tokenAction action := by
    rw [frames_nil, Nat.zero_add]
    exact Nat.le_trans (σ.world_same consumes loader files) (Nat.le_add_right _ _)
  unfold World.actOnToken
  split
  · exact same rfl rfl
  · cases action with
    | look => exact same rfl rfl
    | define d =>
      rw [frames_nil, Nat.zero_add]
      exact σ.world_draft consumes w site d rfl (σ.loader_register ..)
    | defineDerived d =>
      rw [frames_nil, Nat.zero_add]
      exact σ.world_draft consumes w site d rfl (σ.loader_defineDerived ..)
    | complete =>
      have dropped : σ.world unread' (w.dropToken index) ≤ σ.world unread w := σ.world_same consumes rfl rfl
      simp only [frames_cons, frames_nil, frame]
      omega
    | abandon =>
      rw [frames_nil, Nat.zero_add]
      refine Nat.le_trans (σ.world_fewer (w := w) consumes (Nat.le_of_eq ?_) rfl) (Nat.le_add_right _ _)
      exact σ.loader_report w.loader _

/-- What is written down within an action goes to the loader, to the fetcher, or to the frames that the action
leaves. -/
theorem world_act (w : World) (site : Site) (action : Action) {rest : Script}
    (consumes : Consumes unread unread' (w.reads? (.script site (action :: rest)))) :
    σ.frames (w.act site action).2 + σ.world unread' (w.act site action).1 ≤
      σ.world unread w + σ.inner action := by
  have fewer {w' : World} {frames : List Frame} (free : σ.frames frames = 0)
      (loader : σ.loader w'.loader ≤ σ.loader w.loader) (files : w'.fetcher.files = w.fetcher.files) :
      σ.frames frames + σ.world unread' w' ≤ σ.world unread w + σ.inner action := by
    rw [free, Nat.zero_add]
    exact Nat.le_trans (σ.world_fewer consumes loader files) (Nat.le_add_right _ _)
  have same {w' : World} {frames : List Frame} (free : σ.frames frames = 0)
      (loader : w'.loader = w.loader) (files : w'.fetcher.files = w.fetcher.files) :
      σ.frames frames + σ.world unread' w' ≤ σ.world unread w + σ.inner action :=
    fewer free (Nat.le_of_eq (congrArg σ.loader loader)) files
  cases action with
  | value a =>
    have unchanged := w.actOnValues_same site a
    simp only [World.act]
    generalize w.actOnValues site a = made at *
    obtain ⟨w', reply⟩ := made
    cases reply <;> exact same rfl unchanged.loader (congrArg Fetcher.files unchanged.fetcher)
  | get id =>
    simp only [World.act]
    split
    · exact same rfl rfl rfl
    · rename_i c _
      have dependency := σ.world_getDependency consumes w c id
      simp only [frames_append, frames_cons, frames_nil, frame]
      omega
  | giveBackDependency id =>
    simp only [World.act]
    split
    · exact same rfl rfl rfl
    · exact Nat.le_trans (σ.world_getDependency consumes w _ id) (Nat.le_add_right _ _)
  | loadAsync ids tag body =>
    simp only [World.act]
    split
    · exact same rfl rfl rfl
    · have passed : σ.world unread' (w.newCallback site tag body).1 ≤ σ.world unread w :=
        σ.world_same consumes rfl rfl
      have receiver : σ.receiver (.host (w.newCallback site tag body).2) = σ.script body := rfl
      simp only [frames_append, frames_cons, frames_nil, frame, receiver, inner]
      omega
  | useModules ids tag body =>
    have passed : σ.world unread' (w.newCallback site tag body).1 ≤ σ.world unread w :=
      σ.world_same consumes rfl rfl
    have receiver : σ.receiver (.host (w.newCallback site tag body).2) = σ.script body := rfl
    simp only [World.act, frames_append, frames_cons, frames_nil, frame, continuation, receiver, inner]
    omega
  | load locators tag body =>
    have passed : σ.world unread' (w.newCallback site tag body).1 ≤ σ.world unread w :=
      σ.world_same consumes rfl rfl
    have called : σ.continuation (.call (w.newCallback site tag body).2) = σ.script body := rfl
    simp only [World.act, frames_append, frames_cons, frames_nil, frame, called, inner]
    omega
  | compile | keep =>
    simp only [World.act]
    split <;> exact same rfl rfl rfl
  | completeAll =>
    simp only [World.act]
    split <;> exact same rfl rfl rfl
  | setExports =>
    simp only [World.act]
    split
    · exact same rfl rfl rfl
    · exact fewer rfl (σ.loader_setExports w.loader _ _) rfl
  | define d =>
    simp only [World.act, frames_nil, Nat.zero_add]
    exact σ.world_draft consumes w site d rfl (σ.loader_register ..)
  | defineDerived d derived =>
    simp only [World.act, frames_nil, Nat.zero_add]
    exact σ.world_draft consumes w site d rfl (σ.loader_defineDerived ..)
  | modify id body =>
    have modified := σ.world_modify consumes w id body
    simp only [World.act, frames_append, frames_cons, frames_nil, frame, inner]
    omega
  | preload id =>
    have queued := σ.loader_addPreload w.loader id
    have files := σ.files_fewer consumes w.fetcher.files
    simp only [World.act, frames_nil, world, inner, queued]
    omega
  | addFile resource d =>
    have added := σ.files_added consumes w.fetcher.files resource (w.evalDraft site d).2
    have cost : σ.registration (w.evalDraft site d).2 = σ.draft d := σ.eval_draft _ _ d
    have loader : (w.evalDraft site d).1.loader = w.loader := rfl
    have files : (w.evalDraft site d).1.fetcher.files = w.fetcher.files := rfl
    simp only [World.act, frames_nil, world, inner, loader, files]
    omega
  | complete resource =>
    refine Nat.le_trans (σ.world_completeTaken w site _ (fun w' token taken => ?_) consumes)
      (Nat.le_add_right _ _)
    unfold World.takeQueued? at taken
    split at taken <;> cases taken
    exact ⟨rfl, rfl⟩
  | completeNext =>
    refine Nat.le_trans (σ.world_completeTaken w site _ (fun w' token taken => ?_) consumes)
      (Nat.le_add_right _ _)
    unfold World.takeNext? at taken
    split at taken <;> cases taken
    exact ⟨rfl, rfl⟩
  | token index a => exact σ.world_actOnToken consumes w site index a
  | remove | clearDiagnostics => exact fewer rfl (Nat.le_refl _) rfl
  | report => exact fewer rfl (Nat.le_of_eq (σ.loader_emit w.loader _)) rfl
  | _ => exact same rfl rfl rfl

theorem world_runScript (w : World) (site : Site) (action : Action) (rest : Script)
    (consumes : Consumes unread unread' (w.reads? (.script site (action :: rest)))) :
    σ.frames (w.runScript site (action :: rest)).2 + σ.world unread' (w.runScript site (action :: rest)).1 +
        σ.step (action :: rest) ≤ σ.world unread w + σ.script (action :: rest) := by
  have acted := σ.world_act w site action consumes
  rw [script]
  simp only [World.runScript]
  split
  · dsimp only
    omega
  · simp only [frames_append, frames_cons, frames_nil, frame]
    omega

/-! Frames. -/

theorem frames_resume (next : Option Continuation) :
    σ.frames ((next.map Frame.resume).toList) = (next.map σ.continuation).getD 0 := by
  cases next <;> rfl

theorem world_arrive (consumes : Consumes unread unread' read) (w : World) (b : BarrierId)
    (loaded : Option RecordId) :
    σ.frames (w.arrive b loaded).2 + σ.world unread' (w.arrive b loaded).1 ≤ σ.world unread w := by
  have arrived := σ.loader_arrive w.loader b loaded
  have files := σ.files_fewer consumes w.fetcher.files
  simp only [World.arrive, frames_resume, world]
  omega

theorem world_settle (consumes : Consumes unread unread' read) (w : World) (locator : Locator)
    (b : BarrierId) :
    σ.frames (w.settle locator b).2 + σ.world unread' (w.settle locator b).1 ≤ σ.world unread w := by
  have settled := σ.loader_edits (w.loader.settledEntry_edits locator) fun _ => id
  have arrive (loaded : Option RecordId) := Nat.le_trans
    (σ.world_arrive consumes { w with loader := (w.loader.settledEntry locator).1 } b loaded)
    (Nat.add_le_add_right settled _)
  unfold World.settle
  dsimp only
  split
  · exact arrive _
  · exact arrive _
  · rw [σ.frames_free rfl, Nat.zero_add]
    exact σ.world_fewer consumes settled rfl

theorem world_callBack (consumes : Consumes unread unread' read) (w : World) (c : Callback)
    (interfaces : List (Option Value)) :
    σ.frames (w.callBack c interfaces).2 + σ.world unread' (w.callBack c interfaces).1 ≤
      σ.callback c + σ.world unread w := by
  have same := World.bindArguments_same
    (w.write c.place "callback" (some (.many (interfaces.map w.displayOption)))) interfaces
  have called : σ.frames (w.callBack c interfaces).2 = σ.callback c := Nat.add_zero _
  rw [called]
  exact Nat.add_le_add_left (σ.world_same consumes same.loader (congrArg Fetcher.files same.fetcher)) _

theorem world_compile (consumes : Consumes unread unread' read) (w : World) (r : RecordId) :
    σ.frames (w.compile r).2 + σ.world unread' (w.compile r).1 ≤ σ.world unread w := by
  have files := σ.files_fewer consumes w.fetcher.files
  have same {answer : Option Value} : σ.frames [] + σ.world unread' { w with answer } ≤ σ.world unread w := by
    rw [frames_nil, Nat.zero_add]
    exact σ.world_same consumes rfl rfl
  have bare : σ.frames [.finishCompile r] = 0 := σ.frames_free rfl
  unfold World.compile
  split
  · exact same
  · exact same
  · rename_i below below'
    split
    · have early : w.loader.status r < .compiling := by
        revert below below'
        cases w.loader.status r <;> simp_all [Status.lt_iff, Status.code]
      dsimp only
      have begun := σ.loader_beginCompile w.loader (r := r) (w.memory.newObject ∅).2
      have factory : ((w.loader.beginCompile r (w.memory.newObject ∅).2).record r).factory =
          (w.loader.record r).factory := by
        rw [Loader.beginCompile, Loader.record_updateRecord]
        split <;> rfl
      rw [factory]
      have early : (w.loader.record r).status < .compiling := early
      split
      · rename_i body _ function
        have runs : σ.record (w.loader.record r) = σ.script body := by
          rw [record, if_pos early, function]
          rfl
        have entered : σ.loader ((w.loader.beginCompile r (w.memory.newObject ∅).2).enterFactory r) =
            σ.loader (w.loader.beginCompile r (w.memory.newObject ∅).2) := rfl
        simp only [frames_cons, frames_nil, frame, world, entered]
        omega
      · rename_i value _
        have exported := σ.loader_setExports (w.loader.beginCompile r (w.memory.newObject ∅).2) r value
        simp only [bare, world]
        omega
      · simp only [bare, world]
        omega
    · exact same

theorem world_applyPatches (consumes : Consumes unread unread' read) (w : World) (key : Locator)
    (r : RecordId) :
    σ.frames (w.applyPatches key r).2 + σ.world unread' (w.applyPatches key r).1 +
        σ.unit * (w.loader.takePatches key).2.length ≤ σ.world unread w := by
  have taken := σ.loader_takePatches w.loader key
  have files := σ.files_fewer consumes w.fetcher.files
  have runs (patches : List Patch) :
      σ.frames (patches.flatMap fun patch => [.runPatch r patch, .replaceInterface r]) +
        σ.unit * patches.length = σ.patches patches := by
    induction patches with
    | nil => rfl
    | cons patch patches ih =>
      simp only [List.flatMap_cons, frames_append, frames_cons, frames_nil, frame, List.length_cons,
        Nat.mul_succ, Scale.patches, List.map_cons, List.sum_cons, Scale.patch] at *
      omega
  have runs := runs (w.loader.takePatches key).2
  simp only [World.applyPatches, world]
  omega

theorem world_load (consumes : Consumes unread unread' read) (w : World) (locators : List Locator)
    (next : Continuation) :
    σ.frames (w.load locators next).2 + σ.world unread' (w.load locators next).1 ≤
      σ.continuation next + σ.world unread w := by
  have opened := σ.loader_newBarrier w.loader (locators.filter w.loader.needsLoading).length next
  have files := σ.files_fewer consumes w.fetcher.files
  simp only [World.load]
  split
  · simp only [frames_cons, frames_nil, frame, world]
    omega
  · simp only [frames_cons, frames_nil, frame, world]
    omega

theorem world_resume (consumes : Consumes unread unread' read) (w : World) (next : Continuation) :
    σ.frames (w.resume next).2 + σ.world unread' (w.resume next).1 ≤
      σ.continuation next + σ.world unread w := by
  have still : σ.world unread' w ≤ σ.world unread w := σ.world_same consumes rfl rfl
  cases next with
  | arrive b r =>
    have arrived := σ.world_arrive consumes w b (some r)
    simp only [World.resume, continuation]
    omega
  | call c => exact σ.world_callBack consumes w c []
  | request | preload | gather =>
    simp only [World.resume, frames_cons, frames_nil, frame, continuation]
    omega

/-- Asking for what is queued takes one unit out of what queueing it was worth. -/
theorem world_preload (consumes : Consumes unread unread' read) (w : World) (next : Continuation) :
    σ.frames (w.preload next).2 + σ.world unread' (w.preload next).1 +
        (if w.loader.preloads = [] then 0 else σ.unit) ≤
      σ.continuation next + σ.world unread w := by
  have files := σ.files_fewer consumes w.fetcher.files
  cases queued : w.loader.preloads with
  | nil =>
    simp only [World.preload, queued, if_true, frames_cons, frames_nil, frame, world]
    omega
  | cons id ids =>
    have paid := σ.request_queued (List.cons_ne_nil id ids)
    simp only [World.preload, queued, frames_cons, frames_nil, frame, receiver, world, loader, Loader.note,
      List.length_nil, Nat.mul_zero, reduceCtorEq, if_false]
    omega

theorem world_gather (consumes : Consumes unread unread' read) (w : World)
    (interfaces : List (Option Value)) (receiver : Receiver) (locators : List (Option Locator)) :
    σ.frames (w.gather interfaces receiver locators).2 +
        σ.world unread' (w.gather interfaces receiver locators).1 ≤
      σ.receiver receiver + σ.world unread w := by
  have still : σ.world unread' w ≤ σ.world unread w := σ.world_same consumes rfl rfl
  cases locators with
  | nil =>
    simp only [World.gather, frames_cons, frames_nil, frame]
    omega
  | cons locator later =>
    simp only [World.gather]
    split <;> simp only [frames_cons, frames_nil, frame] <;> omega

theorem world_finishFetch (consumes : Consumes unread unread' read) (w : World) (token : FetchToken) :
    σ.frames (w.finishFetch token).2 + σ.world unread' (w.finishFetch token).1 +
        (if w.loader.anonymous.isSome then σ.unit else 0) ≤ σ.world unread w := by
  have finished := σ.loader_finishFetch w.loader token
  have files := σ.files_fewer consumes w.fetcher.files
  have free := σ.frames_map_free (f := fun waiter : Waiter => .settled waiter.locator waiter.barrier)
    (fun _ => rfl)
  simp only [World.finishFetch, free, world]
  omega

theorem world_enterBody (consumes : Consumes unread unread' read) (w : World) (r : RecordId) (role : String)
    (body : Script) :
    σ.frames (w.enterBody r role body).2 + σ.world unread' (w.enterBody r role body).1 ≤
      σ.script body + σ.world unread w :=
  Nat.add_le_add (Nat.le_of_eq (Nat.add_zero _)) (σ.world_same consumes rfl rfl)

theorem world_finishCompile (consumes : Consumes unread unread' read) (w : World) (r : RecordId) :
    σ.frames (w.finishCompile r).2 + σ.world unread' (w.finishCompile r).1 ≤ σ.world unread w := by
  have compiled : σ.world unread' (w.finishCompile r).1 ≤ σ.world unread w :=
    σ.world_fewer consumes (σ.loader_setStatus w.loader (Status.le_compiled _)) rfl
  have silent : σ.frames (w.finishCompile r).2 = 0 := by
    simp only [World.finishCompile, frames_append,
      σ.frames_map_free (f := (Frame.applyPatches · r)) (fun _ => rfl),
      σ.frames_free (f := .answerExports r) rfl]
  omega

/-- What the next token's resource had to say is read; the token leaves nothing else to be executed. -/
theorem world_completeRest (w : World) (site : Site) (done : Nat)
    (consumes : Consumes unread unread' (w.reads? (.completeRest site done))) :
    σ.frames ((Frame.completeRest site done).exec w).2 +
        σ.world unread' ((Frame.completeRest site done).exec w).1 +
        σ.unit * w.reading (.completeRest site done) ≤ σ.world unread w := by
  simp only [Frame.exec, World.reading, World.reads?, World.taken?] at consumes ⊢
  cases taken : w.takeNext? with
  | none =>
    have written : σ.world unread' (w.write site.place "complete_all" (some (.number done))) ≤
        σ.world unread w := σ.world_same consumes rfl rfl
    simp only [Option.map_none, Option.getD_none, Nat.mul_zero, frames_nil]
    omega
  | some next =>
    obtain ⟨w', token⟩ := next
    have takes : w.taken? (.completeRest site done) = some (w', token) := taken
    obtain ⟨loader, files⟩ := World.taken?_same takes
    rw [taken] at consumes
    have evaluated := σ.world_evaluate (p := token.resource) consumes w'
    have before : σ.world unread w' = σ.world unread w := by rw [world, world, loader, files]
    rw [Fetcher.registrations_of_files files] at evaluated
    simp only [Option.map_some, Option.getD_some, frames_cons, frames_nil, frame]
    omega

/-- What a frame leaves to be executed was there before, and more than that: what it has used up is gone. -/
theorem exec {w : World} (sound : Loader.Sound w.loader) (frame : Frame)
    (consumes : Consumes unread unread' (w.reads? frame)) :
    σ.frames (frame.exec w).2 + σ.world unread' (frame.exec w).1 + σ.fee w frame ≤
      σ.frame frame + σ.world unread w := by
  have same {w' : World} (loader : w'.loader = w.loader) (files : w'.fetcher.files = w.fetcher.files) :
      σ.world unread' w' ≤ σ.world unread w := σ.world_same consumes loader files
  have still : σ.world unread' w ≤ σ.world unread w := same rfl rfl
  cases frame with
  | script site actions =>
    cases actions with
    | nil =>
      exact Nat.le_trans (Nat.le_of_eq (Nat.zero_add _)) (Nat.le_trans (same rfl rfl) (Nat.le_add_left ..))
    | cons action rest =>
      have ran := σ.world_runScript w site action rest consumes
      simp only [Frame.exec, fee, Scale.frame]
      omega
  | conclude site conclusion =>
    have unchanged := w.conclude_same site conclusion
    have fewer := same unchanged.loader (congrArg Fetcher.files unchanged.fetcher)
    simp only [Frame.exec, fee, Scale.frame, frames_nil]
    omega
  | load locators next => exact σ.world_load consumes w locators next
  | entries locators b =>
    cases locators with
    | nil =>
      have silent : σ.unit * w.reading (.entries [] b) = 0 := rfl
      simp only [Frame.exec, fee, Scale.frame, frames_nil, silent]
      omega
    | cons locator later =>
      have entered := σ.world_enter sound consumes
      simp only [Frame.exec, fee, Scale.frame, frames_append, frames_cons, frames_nil]
      omega
  | settled locator b =>
    have settled := σ.world_settle consumes w locator b
    simp only [Frame.exec, fee, Scale.frame]
    omega
  | resume next => exact σ.world_resume consumes w next
  | request referrer ids receiver =>
    have paid := σ.request_pos ids
    simp only [Frame.exec, fee, frames_cons, frames_nil, Scale.frame, continuation]
    omega
  | preload next => exact σ.world_preload consumes w next
  | gather locators interfaces receiver => exact σ.world_gather consumes w interfaces receiver locators
  | collect =>
    simp only [Frame.exec, fee, frames_cons, frames_nil, Scale.frame]
    omega
  | deliver receiver interfaces =>
    cases receiver with
    | host c => exact σ.world_callBack consumes w c interfaces
    | discard next =>
      simp only [Frame.exec, fee, frames_cons, frames_nil, Scale.frame, Scale.receiver]
      omega
  | retrieved token =>
    have finished := σ.world_finishFetch consumes w token
    simp only [Frame.exec, fee, Scale.frame]
    omega
  | compile r =>
    have compiled := σ.world_compile consumes w r
    simp only [Frame.exec, fee, Scale.frame]
    omega
  | runFactory r body => exact σ.world_enterBody consumes w r "factory" body
  | runPatch r patch => exact σ.world_enterBody consumes w r "patch" patch.body
  | replaceInterface r =>
    simp only [Frame.exec, fee, Scale.frame]
    split
    · rename_i value _
      have exported : σ.world unread' { w with loader := w.loader.setExports r value } ≤ σ.world unread w :=
        σ.world_fewer consumes (σ.loader_setExports w.loader r value) rfl
      simp only [frames_nil]
      omega
    · simp only [frames_nil]
      omega
  | leaveFactory =>
    have left : σ.world unread' { w with loader := w.loader.leaveFactory } ≤ σ.world unread w :=
      σ.world_fewer consumes (Nat.le_refl _) rfl
    simp only [Frame.exec, fee, Scale.frame, frames_nil]
    omega
  | finishCompile r =>
    have finished := σ.world_finishCompile consumes w r
    simp only [Frame.exec, fee, Scale.frame]
    omega
  | applyPatches key r =>
    have applied := σ.world_applyPatches consumes w key r
    simp only [Frame.exec, fee, Scale.frame]
    omega
  | answerExports r =>
    have answered : σ.world unread' { w with answer := (w.loader.record r).exports } ≤ σ.world unread w :=
      same rfl rfl
    simp only [Frame.exec, fee, Scale.frame, frames_nil]
    omega
  | completeRest site done =>
    have completed := σ.world_completeRest w site done consumes
    simp only [fee, Scale.frame]
    omega

end Scale
end ModuleLoader
