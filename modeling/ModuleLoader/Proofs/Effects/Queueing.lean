import ModuleLoader.Proofs.Effects.Exec

/-! What is queued to be loaded before anything else. The host adds to the queue, a request takes all of it,
and nothing else touches it. -/
namespace ModuleLoader

namespace Loader

variable (l : Loader)

theorem emit_preloads (d : Diagnostic) : (l.emit d).preloads = l.preloads := by
  unfold emit
  dsimp only
  split <;> rfl

theorem Edits.preloads {permit : Permit} {l l' : Loader} (edits : Edits permit l l') :
    l'.preloads = l.preloads := by
  refine edits.lift (R := fun l l' => l'.preloads = l.preloads) (fun _ => rfl) (fun ab bc => bc.trans ab)
    fun edit => ?_
  cases edit with
  | reported d => exact emit_preloads _ d
  | _ => rfl

theorem arrive_preloads (b : BarrierId) (loaded : Option RecordId) :
    (l.arrive b loaded).1.preloads = l.preloads := by
  unfold arrive countDown markReady
  dsimp only
  split
  · split <;> split <;> rfl
  · split <;> rfl

end Loader

/-- What a frame leaves of the queue. -/
def Frame.queue (preloads : List String) : Frame → List String
  | .preload _ => []
  | .script _ (.preload id :: _) => preloads ++ [id]
  | _ => preloads

/-- What is queued stays so unless it is requested. -/
theorem Frame.queue_cases (frame : Frame) (preloads : List String) :
    preloads ⊆ frame.queue preloads ∨ ∃ next, frame = .preload next := by
  cases frame with
  | preload next => exact .inr ⟨next, rfl⟩
  | script site actions =>
    refine .inl ?_
    cases actions with
    | nil => exact List.Subset.refl _
    | cons action later =>
      cases action with
      | preload id => exact List.subset_append_left preloads [id]
      | _ => exact List.Subset.refl _
  | _ => exact .inl (List.Subset.refl _)

namespace World

variable (w : World)

theorem getDependency_preloads (c : Context) (id : String) :
    (w.getDependency c id).1.loader.preloads = w.loader.preloads := by
  unfold getDependency
  dsimp only
  split
  · rfl
  · split
    · rfl
    · split <;> rfl

theorem modify_preloads (id : String) (body : Script) :
    (w.modify id body).1.loader.preloads = w.loader.preloads := by
  unfold modify
  split
  · exact w.loader.emit_preloads _
  · dsimp only
    split
    · split <;> rfl
    · rfl

theorem actOnToken_preloads (site : Site) (index : Nat) (action : TokenAction) :
    (w.actOnToken site index action).1.loader.preloads = w.loader.preloads := by
  unfold actOnToken
  split
  · rfl
  · cases action with
    | define draft => exact (w.loader.register_edits _ none).preloads
    | defineDerived draft => exact (w.loader.defineDerived_edits _ _).preloads
    | abandon => exact w.loader.emit_preloads _
    | look | complete => rfl

theorem completeTaken_preloads (site : Site) (action : String) {taken : Option (World × FetchToken)}
    (same : ∀ w' token, taken = some (w', token) → w'.loader = w.loader) :
    (w.completeTaken site action taken).1.loader.preloads = w.loader.preloads := by
  unfold completeTaken
  split
  · rfl
  · split
    · rename_i w' token
      rw [← same w' token rfl]
      exact (w'.evaluate_edits token.resource).preloads
    · rfl

theorem act_preloads (site : Site) (action : Action) (later : Script) :
    (w.act site action).1.loader.preloads =
      (Frame.script site (action :: later)).queue w.loader.preloads := by
  cases action with
  | value a =>
    have same := (w.actOnValues_same site a).loader
    simp only [act]
    generalize w.actOnValues site a = made at *
    obtain ⟨w', reply⟩ := made
    cases reply <;> exact congrArg Loader.preloads same
  | get id =>
    simp only [act]
    split
    · rfl
    · exact w.getDependency_preloads _ id
  | giveBackDependency id =>
    simp only [act]
    split
    · rfl
    · exact w.getDependency_preloads _ id
  | loadAsync | compile | keep | setExports | completeAll =>
    simp only [act]
    split <;> rfl
  | define draft => exact (w.loader.register_edits _ none).preloads
  | defineDerived draft derived => exact (w.loader.defineDerived_edits _ derived).preloads
  | modify id body => exact w.modify_preloads id body
  | complete resource =>
    exact w.completeTaken_preloads site _ fun w' token taken => (takeQueued?_spec taken).1
  | completeNext =>
    exact w.completeTaken_preloads site _ fun w' token taken => (takeNext?_spec taken).1
  | token index a => exact w.actOnToken_preloads site index a
  | report => exact w.loader.emit_preloads _
  | _ => rfl

theorem settle_preloads (locator : Locator) (b : BarrierId) :
    (w.settle locator b).1.loader.preloads = w.loader.preloads := by
  have read := (w.loader.settledEntry_edits locator).preloads
  unfold settle arrive
  dsimp only
  split
  · exact (Loader.arrive_preloads _ b none).trans read
  · exact (Loader.arrive_preloads _ b (some _)).trans read
  · exact read

theorem compile_preloads (r : RecordId) : (w.compile r).1.loader.preloads = w.loader.preloads := by
  unfold compile
  dsimp only
  split
  · rfl
  · rfl
  · split
    · split <;> rfl
    · rfl

end World

/-- Nothing but a request for preloads and the host's own additions changes the queue. -/
theorem Frame.exec_preloads (w : World) (frame : Frame) :
    (frame.exec w).1.loader.preloads = frame.queue w.loader.preloads := by
  cases frame with
  | script site actions =>
    cases actions with
    | nil => rfl
    | cons action later =>
      simp only [exec, World.runScript]
      split <;> exact w.act_preloads site action later
  | conclude site conclusion => exact congrArg Loader.preloads (w.conclude_same site conclusion).loader
  | load locators next =>
    simp only [exec, World.load]
    split <;> rfl
  | entries locators b =>
    cases locators with
    | nil => rfl
    | cons locator later => exact (w.enter_edits locator b).preloads
  | settled locator b => exact w.settle_preloads locator b
  | resume next =>
    cases next with
    | arrive b r => exact w.loader.arrive_preloads b (some r)
    | call callback => exact congrArg Loader.preloads (World.bindArguments_same _ _).loader
    | request | preload | gather => rfl
  | preload next =>
    simp only [exec, World.preload]
    split <;> simp_all [queue, Loader.note]
  | gather locators interfaces receiver =>
    cases locators with
    | nil => rfl
    | cons locator later =>
      simp only [exec, World.gather]
      split <;> rfl
  | deliver receiver interfaces =>
    cases receiver with
    | host callback => exact congrArg Loader.preloads (World.bindArguments_same _ _).loader
    | discard next => rfl
  | retrieved token => exact (w.loader.finishFetch_edits token).preloads
  | compile r => exact w.compile_preloads r
  | replaceInterface r =>
    simp only [exec]
    split <;> rfl
  | completeRest site done =>
    simp only [exec]
    cases taken : w.takeNext? with
    | none => rfl
    | some next =>
      obtain ⟨w', token⟩ := next
      have same := (World.takeNext?_spec taken).1
      refine (w'.evaluate_edits token.resource).preloads.trans ?_
      rw [same]
      rfl
  | _ => rfl

end ModuleLoader
