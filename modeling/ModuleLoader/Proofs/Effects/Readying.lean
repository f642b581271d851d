import ModuleLoader.Proofs.Effects.Deeds

/-! What makes a module ready, and what becomes of reports. A module becomes ready by being told that it has
been waited for, and in no other way; reports that are held go on to be held unless the host clears them. -/
namespace ModuleLoader

/-- A sink that holds reports goes on to hold them, and it may come to hold more. -/
def Sink.Gains (sink sink' : Sink) : Prop :=
  ∀ held, sink = .buffer held → ∃ more, sink' = .buffer (held ++ more)

namespace Sink.Gains

theorem refl (sink : Sink) : sink.Gains sink :=
  fun held same => ⟨[], same.trans (congrArg buffer (List.append_nil held).symm)⟩

theorem trans {a b c : Sink} (ab : a.Gains b) (bc : b.Gains c) : a.Gains c := by
  intro held same
  obtain ⟨more, same⟩ := ab held same
  obtain ⟨further, same⟩ := bc _ same
  exact ⟨more ++ further, same.trans (congrArg buffer (List.append_assoc ..))⟩

theorem of_eq {sink sink' : Sink} (same : sink' = sink) : sink.Gains sink' := same ▸ refl sink

theorem emit (sink : Sink) (d : Diagnostic) : sink.Gains (sink.emit d).1 := by
  rintro held rfl
  exact ⟨[d], rfl⟩

theorem held {sink sink' : Sink} (gains : sink.Gains sink') {d : Diagnostic} (member : d ∈ sink.held) :
    d ∈ sink'.held := by
  cases sink with
  | buffer held =>
    obtain ⟨more, same⟩ := gains held rfl
    rw [same]
    exact List.mem_append_left _ member
  | tracing | silent => cases member

end Sink.Gains

namespace Loader

/-- No report is forgotten, and no module has become ready. -/
structure Mild (l l' : Loader) : Prop where
  sink : l.sink.Gains l'.sink
  ready : ∀ r, l'.status r = .ready → l.status r = .ready

namespace Mild

variable {l l' : Loader}

theorem refl (l : Loader) : Mild l l := ⟨.refl _, fun _ => id⟩

theorem of_eq (same : l' = l) : Mild l l' := same ▸ refl l

theorem trans {a b c : Loader} (ab : Mild a b) (bc : Mild b c) : Mild a c :=
  ⟨ab.sink.trans bc.sink, fun r => ab.ready r ∘ bc.ready r⟩

theorem of_same (sink : l'.sink = l.sink) (records : l'.records = l.records) : Mild l l' := by
  refine ⟨.of_eq sink, fun r ready => ?_⟩
  rw [status, record, ← records]
  exact ready

/-- A record is changed, and it does not come to be ready. -/
theorem of_update (l : Loader) {r : RecordId} {f : Record → Record}
    (ready : (f (l.record r)).status = .ready → (l.record r).status = .ready) :
    Mild l (l.updateRecord r f) := by
  refine ⟨.refl _, fun x now => ?_⟩
  rw [status] at now ⊢
  obtain same | ⟨rfl, same⟩ := l.updateRecord_cases r f x <;> rw [same] at now
  · exact now
  · exact ready now

end Mild

theorem note_mild (l : Loader) (e : Event) : Mild l (l.note e) := .of_same rfl rfl

theorem emit_mild (l : Loader) (d : Diagnostic) : Mild l (l.emit d) := by
  have sink : l.sink.Gains (l.sink.emit d).1 := .emit l.sink d
  unfold emit
  split
  rename_i emitted _ same
  rw [same] at sink
  dsimp only
  split <;> exact ⟨sink, fun _ => id⟩

theorem setStatus_mild (l : Loader) (r : RecordId) {s : Status} (other : s ≠ .ready) :
    Mild l (l.setStatus r s) :=
  (Mild.of_update l (f := fun record => { record with status := s }) fun now => absurd now other).trans
    (note_mild _ _)

theorem newRecord_mild (l : Loader) (locator : Locator) {s : Status} (other : s ≠ .ready) :
    Mild l (l.newRecord locator s).1 := by
  refine ⟨.refl _, fun r ready => ?_⟩
  rw [status_newRecord] at ready
  split at ready
  · exact absurd ready other
  · exact ready

/-- Registering and retrieving make no module ready. -/
theorem Edits.mild {permit : Permit} {l l' : Loader} (edits : Edits permit l l') : Mild l l' := by
  refine edits.lift .refl .trans fun edit => ?_
  cases edit with
  | reported d => exact emit_mild _ d
  | made locator early =>
    refine newRecord_mild _ locator ?_
    rintro rfl
    exact absurd early (by decide)
  | fetched => exact setStatus_mild _ _ (by decide)
  | saved => exact .of_update _ fun now => by cases now
  | seconded => exact .of_update _ id
  | _ => exact .of_same rfl rfl

end Loader

open Loader (Mild)

namespace World

variable {w : World}

theorem getDependency_mild (w : World) (c : Context) (id : String) :
    Mild w.loader (w.getDependency c id).1.loader := by
  unfold getDependency
  dsimp only
  split
  · exact .refl _
  · split
    · exact .refl _
    · split
      · exact .refl _
      · exact .refl _
      · exact .of_update _ fun now => now

theorem modify_mild (w : World) (id : String) (body : Script) :
    Mild w.loader (w.modify id body).1.loader := by
  unfold modify
  split
  · exact w.loader.emit_mild _
  · dsimp only
    split
    · split
      · exact .refl _
      · exact .of_same rfl rfl
    · exact .of_same rfl rfl

theorem actOnToken_mild (w : World) (site : Site) (index : Nat) (action : TokenAction) :
    Mild w.loader (w.actOnToken site index action).1.loader := by
  unfold actOnToken
  split
  · exact .refl _
  · cases action with
    | look | complete => exact .refl _
    | define draft => exact (w.loader.register_edits _ none).mild
    | defineDerived draft => exact (w.loader.defineDerived_edits _ _).mild
    | abandon => exact w.loader.emit_mild _

theorem completeTaken_mild (site : Site) (action : String) {taken : Option (World × FetchToken)}
    (spec : ∀ w' token, taken = some (w', token) → w'.loader = w.loader) :
    Mild w.loader (w.completeTaken site action taken).1.loader := by
  unfold completeTaken
  split
  · exact .refl _
  · split
    · rename_i w' token
      have same := spec w' token rfl
      exact (Mild.of_eq same).trans (w'.evaluate_edits _).mild
    · exact .refl _

/-- An action that does not clear what has been reported. -/
theorem act_mild (w : World) (site : Site) {action : Action}
    (kept : action ≠ .clearDiagnostics) :
    Mild w.loader (w.act site action).1.loader := by
  cases action with
  | value a =>
    have same := (w.actOnValues_same site a).loader
    simp only [act]
    generalize w.actOnValues site a = made at *
    obtain ⟨w', reply⟩ := made
    cases reply <;> exact .of_eq same
  | get id into key =>
    simp only [act]
    split
    · exact .refl _
    · exact w.getDependency_mild _ id
  | giveBackDependency id =>
    simp only [act]
    split
    · exact .refl _
    · exact w.getDependency_mild _ id
  | loadAsync | compile | keep | completeAll =>
    simp only [act]
    split <;> exact .refl _
  | setExports ref value =>
    simp only [act]
    split
    · exact .refl _
    · exact .of_update _ id
  | define draft => exact (w.loader.register_edits _ none).mild
  | defineDerived draft derived => exact (w.loader.defineDerived_edits _ derived).mild
  | modify id body => exact w.modify_mild id body
  | complete resource =>
    exact completeTaken_mild site _ fun _ _ taken => (takeQueued?_spec taken).loader
  | completeNext => exact completeTaken_mild site _ fun _ _ taken => (takeNext?_spec taken).loader
  | token index a => exact w.actOnToken_mild site index a
  | report severity message detail => exact w.loader.emit_mild _
  | preload | remove => exact .of_same rfl rfl
  | clearDiagnostics => exact (kept rfl).elim
  | query | giveBack | useModules | load | describe | addFile | unknown => exact .refl _

theorem compile_mild (w : World) (r : RecordId) : Mild w.loader (w.compile r).1.loader := by
  have begun (interface : Value) : Mild w.loader (w.loader.beginCompile r interface) :=
    .of_update _ fun now => by cases now
  unfold compile
  split
  · exact .refl _
  · exact .refl _
  · split
    · dsimp only
      split
      · exact (begun _).trans (.of_same rfl rfl)
      · exact (begun _).trans (.of_update _ id)
      · exact begun _
    · exact .refl _

end World

/-- The module that a frame finds to have been waited for. -/
def Frame.readies? (w : World) : Frame → Option RecordId
  | .settled locator _ =>
    match (w.loader.settledEntry locator).2 with
    | .ready r => some r
    | .missing | .waits .. => none
  | .resume (.arrive _ r) => some r
  | _ => none

namespace Loader

theorem arrive_mild (l : Loader) (b : BarrierId) (loaded : Option RecordId) :
    l.sink.Gains (l.arrive b loaded).1.sink ∧
      ∀ r, (l.arrive b loaded).1.status r = .ready → l.status r = .ready ∨ loaded = some r := by
  have counted (l : Loader) : Mild l (l.countDown b).1 := by
    unfold countDown
    dsimp only
    split <;> exact .of_same rfl rfl
  cases loaded with
  | none => exact ⟨(counted l).sink, fun r ready => .inl ((counted l).ready r ready)⟩
  | some x =>
    have marked := counted (l.markReady x)
    refine ⟨Sink.Gains.trans ?_ marked.sink, fun r ready => ?_⟩
    · unfold markReady
      split <;> exact .refl _
    · have ready := marked.ready r ready
      unfold markReady at ready
      split at ready
      · rw [status_setStatus] at ready
        split at ready
        · rename_i here
          exact .inr (congrArg some here.1)
        · exact .inl ready
      · exact .inl ready

end Loader

/-- Whatever the next frame is, reports are kept unless it clears them, and it makes no module ready but one
that it finds to have been waited for. -/
theorem Frame.mild (w : World) (frame : Frame)
    (kept : ∀ site later, frame ≠ .script site (.clearDiagnostics :: later)) :
    w.loader.sink.Gains (frame.exec w).1.loader.sink ∧
      ∀ r, (frame.exec w).1.loader.status r = .ready →
        w.loader.status r = .ready ∨ frame.readies? w = some r := by
  have mild {w' : World} (mild : Mild w.loader w'.loader) {frame : Frame} :
      w.loader.sink.Gains w'.loader.sink ∧
        ∀ r, w'.loader.status r = .ready → w.loader.status r = .ready ∨ frame.readies? w = some r :=
    ⟨mild.sink, fun r ready => .inl (mild.ready r ready)⟩
  cases frame with
  | script site actions =>
    cases actions with
    | nil => exact mild (.refl _)
    | cons action later =>
      have other : action ≠ .clearDiagnostics := fun same => kept site later (same ▸ rfl)
      have acted := w.act_mild site other
      simp only [exec, World.runScript]
      split <;> exact mild acted
  | conclude site conclusion => exact mild (.of_eq (w.conclude_same site conclusion).loader)
  | load locators next =>
    simp only [exec, World.load]
    split
    · exact mild (.refl _)
    · exact mild (.of_same rfl rfl)
  | entries locators b =>
    cases locators with
    | nil => exact mild (.refl _)
    | cons locator later => exact mild (w.enter_edits locator b).mild
  | settled locator b =>
    have read := (w.loader.settledEntry_edits locator).mild
    simp only [exec, World.settle, readies?]
    generalize w.loader.settledEntry locator = entry at *
    obtain ⟨l, entry⟩ := entry
    dsimp only at *
    have arrived (loaded : Option RecordId) := l.arrive_mild b loaded
    cases entry with
    | missing =>
      obtain ⟨sink, ready⟩ := arrived none
      exact ⟨read.sink.trans sink, fun r now => (ready r now).imp (read.ready r) id⟩
    | ready x =>
      obtain ⟨sink, ready⟩ := arrived (some x)
      exact ⟨read.sink.trans sink, fun r now => (ready r now).imp (read.ready r) id⟩
    | waits x dependencies => exact ⟨read.sink, fun r now => .inl (read.ready r now)⟩
  | resume next =>
    cases next with
    | arrive b r => exact w.loader.arrive_mild b (some r)
    | call callback =>
      obtain ⟨loader, -, -, -⟩ := World.bindArguments_same
        (w.write callback.place "callback" (some (.many (([] : List (Option Value)).map w.displayOption)))) []
      exact mild (.of_eq loader)
    | request | preload | gather => exact mild (.refl _)
  | preload next =>
    simp only [exec, World.preload]
    split
    · exact mild (.refl _)
    · exact mild (.of_same rfl rfl)
  | gather locators interfaces receiver =>
    cases locators with
    | nil => exact mild (.refl _)
    | cons locator later =>
      simp only [exec, World.gather]
      split <;> exact mild (.refl _)
  | deliver receiver interfaces =>
    cases receiver with
    | host callback =>
      obtain ⟨loader, -, -, -⟩ := World.bindArguments_same
        (w.write callback.place "callback" (some (.many (interfaces.map w.displayOption)))) interfaces
      exact mild (.of_eq loader)
    | discard next => exact mild (.refl _)
  | retrieved token => exact mild (w.loader.finishFetch_edits token).mild
  | compile r => exact mild (w.compile_mild r)
  | replaceInterface r =>
    simp only [exec]
    split
    · exact mild (.of_update _ id)
    · exact mild (.refl _)
  | finishCompile r => exact mild (w.loader.setStatus_mild r (by decide))
  | completeRest site done =>
    simp only [exec]
    split
    · rename_i w' token taken
      have same := (World.takeNext?_spec taken).loader
      exact mild ((Mild.of_eq same).trans (w'.evaluate_edits token.resource).mild)
    · exact mild (.refl _)
  | request | collect | runFactory | runPatch | answerExports => exact mild (.refl _)
  | leaveFactory | applyPatches => exact mild (.of_same rfl rfl)

end ModuleLoader
