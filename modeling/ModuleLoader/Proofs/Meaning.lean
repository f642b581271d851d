import ModuleLoader.Proofs.Compilation
import ModuleLoader.Proofs.Listed.Completeness
import ModuleLoader.Proofs.Meaning.Requests

/-! What callbacks receive does not depend on the order in which resources come in. In a session over a table
whose dependencies do not lead back, and whose modules are values or functions of what they depend on, every
callback receives what the modules mean that it has asked for. -/
namespace ModuleLoader

open Relation (ReflTransGen)
open Machine (Leads)
open Loader (Tabular)

/-- If a module is about to be compiled, its dependencies have been waited for. -/
def Machine.Unhurried (m : Machine) : Prop :=
  ∀ r, m.stack.head? = some (.compile r) → m.world.loader.status r ≠ .saved

/-- No compilation has been hurried, and the one that is going on comes to an end at which nothing is being
compiled. -/
structure Meaningful {setup : Setup} (functional : setup.Functional) (past : List Machine) (m : Machine) :
    Prop where
  unhurried : ∀ moment ∈ past, moment.Unhurried
  ends : ∃ last, m.Leads last ∧ Loading functional past last.stack last.world

section

variable {setup : Setup} {functional : setup.Functional} {past : List Machine} {w w' : World} {frame : Frame}
  {rest frames : List Frame}

theorem Setup.reachable_of_upTo {d e : Locator} (under : setup.UpTo d e) : setup.Reachable [d] e := by
  induction under using ReflTransGen.head_induction_on with
  | refl => exact .wanted (List.mem_singleton_self _)
  | head feeds _ ih => exact .dependency ih feeds

namespace Loading

/-- A step that loads leaves such a state. -/
theorem next (loading : Loading functional past (frame :: rest) w) {m : Machine}
    (carried : Carried functional (m :: past) w w' frames) (tabular : Tabular setup w'.loader)
    (loads : ∀ b next, (w'.loader.barrier b).onDone = some next →
      (w.loader.barrier b).onDone = some next ∨ next.Carries setup (m :: past)) :
    Loading functional (m :: past) (frames ++ rest) w' := by
  refine ⟨⟨tabular, loading.sane.memory.trans carried.memory, fun r compiled => ?_⟩, fun r compiling => ?_,
    ?_, fun b next waits => ?_⟩
  · have late : .compiling ≤ w'.loader.status r := by
      rw [compiled]
      decide
    obtain ⟨status, locator, exports⟩ := carried.shifts.late late
    rw [locator, exports]
    exact (loading.sane.compiled r (status.symm.trans compiled)).mono carried.memory
  · exact loading.idle r ((carried.shifts.late (compiling ▸ Status.le_refl _)).1.symm.trans compiling)
  · refine List.forall_mem_append.mpr ⟨carried.frames, fun f member => ?_⟩
    exact (loading.frames f (List.mem_cons_of_mem _ member)).mono (List.subset_cons_self ..) carried.memory
  · obtain before | now := loads b next waits
    · exact (loading.loads b next before).mono (List.subset_cons_self ..)
    · exact now

/-- A module that was asked for is compiled, and its interface is taken down. -/
theorem gathered {d : Locator} {locators : List (Option Locator)} {interfaces : List (Option Value)}
    {receiver : Receiver} (loading : Loading functional past
      (.gather (some d :: locators) interfaces receiver :: rest) w)
    (clear : ∀ e, setup.UpTo d e → w.Clear setup e) (m : Machine) :
    ∃ last, Leads ⟨(Frame.exec w (.gather (some d :: locators) interfaces receiver)).1,
        (Frame.exec w (.gather (some d :: locators) interfaces receiver)).2 ++ rest⟩ last ∧
      Loading functional (m :: past) last.stack last.world := by
  have later : past ⊆ m :: past := List.subset_cons_self ..
  obtain ⟨done, ids, seeks, same, holds⟩ := loading.frames _ (List.mem_cons_self ..)
  obtain ⟨⟨r, held, -⟩, -⟩ := clear d .refl
  have step : Frame.exec w (.gather (some d :: locators) interfaces receiver) =
      (w, [.compile r, .collect locators interfaces receiver]) := by
    simp only [Frame.exec, World.gather, Option.bind_some, held]
  obtain ⟨w', leads, answers⟩ := functional.compilable d w r
    (.collect locators interfaces receiver :: rest) loading.sane clear held
  cases ids with
  | nil => cases same
  | cons id ids =>
    rw [List.map_cons, List.cons.injEq] at same
    have meaning : functional.answer id = functional.meaning d := by
      rw [Setup.Functional.answer, ← same.1, Option.bind_some]
    refine ⟨⟨w', .gather locators (interfaces ++ [w'.answer]) receiver :: rest⟩, ?_, answers.sane,
      fun r compiling => ?_,
      List.forall_mem_cons.mpr ⟨⟨done ++ [id], ids, ?_, same.2, ?_⟩, fun f member => ?_⟩,
      fun b next waits => ?_⟩
    · rw [step]
      exact leads.trans (.frame rfl (.here _))
    · obtain before | ⟨compiled, -⟩ := answers.only r
      · exact loading.idle r (before.symm.trans compiling)
      · cases compiled.symm.trans compiling
    · exact List.append_cons done id ids ▸ seeks.mono later
    · rw [List.map_append, List.map_singleton, meaning]
      exact List.rel_append (holds.imp fun _ _ => Holds.mono answers.memory) (.cons answers.answer .nil)
    · exact (loading.frames f (List.mem_cons_of_mem _ member)).mono later answers.memory
    · rw [Loader.barrier, answers.barriers] at waits
      exact (loading.loads b next waits).mono later

theorem mono {past' : List Machine} (later : past ⊆ past') {stack : List Frame}
    (loading : Loading functional past stack w) : Loading functional past' stack w :=
  ⟨loading.sane, loading.idle, fun f member => (loading.frames f member).mono later (.refl _),
    fun b next waits => (loading.loads b next waits).mono later⟩

/-- All that a module stands on is done when it is its turn. -/
theorem clear {d : Locator} {locators : List (Option Locator)} {interfaces : List (Option Value)}
    {receiver : Receiver} (loading : Loading functional past
      (.gather (some d :: locators) interfaces receiver :: rest) w)
    (session : Session setup past ⟨w, .gather (some d :: locators) interfaces receiver :: rest⟩)
    (complete : Complete setup past (.gather (some d :: locators) interfaces receiver :: rest) w)
    (uncut : ∀ module d, ¬ Cut past module d) : ∀ e, setup.UpTo d e → w.Clear setup e := by
  obtain ⟨done, ids, seeks, same, -⟩ := loading.frames _ (List.mem_cons_self ..)
  have wants : receiver.Wants (occurrences past) d := by
    cases receiver with
    | host callback =>
      refine ⟨_, seeks.passed, ?_⟩
      rw [setup.wanted_eq, List.map_append, ← same]
      exact List.mem_filterMap.mpr ⟨some d, List.mem_append_right _ (List.mem_cons_self ..), rfl⟩
    | discard next => cases seeks
  have asked (x : Locator) (member : x ∈ [d]) : setup.Done w.loader x := by
    rw [List.mem_singleton.mp member]
    exact complete.frames _ (List.mem_cons_self ..) d wants
  intro e under
  refine ⟨complete.closed session asked (fun module x _ _ cut => absurd cut (uncut module x)) e
    (setup.reachable_of_upTo under), fun r _ => loading.idle r⟩

end Loading

/-- The work of any frame leaves the session in such a state. -/
theorem Meaningful.step (answers : setup.policy.Answers) (session : Session setup past ⟨w, frame :: rest⟩)
    (complete : Complete setup past (frame :: rest) w) (uncut : ∀ module d, ¬ Cut past module d)
    (meaningful : Meaningful functional past ⟨w, frame :: rest⟩) :
    Meaningful functional (⟨w, frame :: rest⟩ :: past) ⟨(frame.exec w).1, (frame.exec w).2 ++ rest⟩ := by
  obtain ⟨unhurried, last, leads, loading⟩ := meaningful
  have later : past ⊆ ⟨w, frame :: rest⟩ :: past := List.subset_cons_self ..
  cases leads with
  | here =>
    have carries := loading.frames frame (List.mem_cons_self ..)
    refine ⟨List.forall_mem_cons.mpr ⟨fun r top => ?_, unhurried⟩, ?_⟩
    · cases Option.some.inj top
      cases carries
    · by_cases gathers : ∃ d locators interfaces receiver,
          frame = .gather (some d :: locators) interfaces receiver
      · obtain ⟨d, locators, interfaces, receiver, rfl⟩ := gathers
        exact loading.gathered (loading.clear session complete uncut) _
      · refine ⟨_, .here _, loading.next (loading.carried functional answers session ?_)
          (session.step functional.toListed answers).plain.tabular fun b next waits => ?_⟩
        · exact fun d locators interfaces receiver same => gathers ⟨d, locators, interfaces, receiver, same⟩
        · obtain before | ⟨wanted, rfl⟩ := (frame.effect session.tracked.sound).waiting waits
          · exact .inl before
          · exact .inr (Continuation.Carries.mono later carries)
  | frame inner further =>
    refine ⟨List.forall_mem_cons.mpr ⟨fun r top => ?_, unhurried⟩, last, further, loading.mono later⟩
    cases Option.some.inj top
    cases inner
  | compile waited further =>
    refine ⟨List.forall_mem_cons.mpr ⟨fun x top => ?_, unhurried⟩, last, further, loading.mono later⟩
    cases Option.some.inj top
    exact waited

end

section

variable {setup : Setup} {past : List Machine} {m : Machine}

theorem Loading.fresh (functional : setup.Functional) : Loading functional [] [] (World.start setup) := by
  obtain ⟨loader, -⟩ := World.start_spec setup
  have unknown (r : RecordId) : (World.start setup).loader.status r = .unknown := by
    rw [loader]
    rfl
  refine ⟨⟨(Plain.fresh functional.toListed).tabular, .refl _, fun r compiled => ?_⟩, fun r compiling => ?_,
    List.forall_mem_nil _, fun b next waits => ?_⟩
  · cases (unknown r).symm.trans compiled
  · cases (unknown r).symm.trans compiling
  · rw [loader] at waits
    cases waits

end

end ModuleLoader
