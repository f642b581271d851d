import Mathlib.Data.List.Nodup
import ModuleLoader.Proofs.Patches.Handling

/-! When patches are run. Each is run once at most, on a module that is compiled, and those that have waited
for the same locator are run on the same module in the order in which they were queued, whatever they do to
each other's modules. Nothing that is queued for a module is still to be run when a queue is taken for it, so
what a queue brings comes last. -/
namespace ModuleLoader

open Loader (Sound)

namespace Machine

/-- The patch that the next step passes on, if it does. -/
def offers? (m : Machine) : Option Patch := m.stack.head?.bind (Frame.offers? m.world)

/-- The patch that the next step queues. -/
def queues? (m : Machine) : Option Patch := m.stack.head?.bind (Frame.queues? m.world)

/-- The patch that the next step enters, and the module that it is run on. -/
def patching? (m : Machine) : Option (RecordId × Patch) := m.stack.head?.bind Frame.patch?

/-- The patches that have been taken out of their queues and are still to be run, next first. -/
def due (m : Machine) : List (RecordId × Patch) := m.stack.filterMap Frame.patch?

end Machine

/-- The patches that have been passed on, latest first. -/
def offered (past : List Machine) : List Patch := past.filterMap Machine.offers?

/-- The patches that have been queued for a locator, latest first. -/
def queuedFor (past : List Machine) (locator : Locator) : List Patch :=
  (past.filterMap Machine.queues?).filter (·.target = locator)

/-- The patches that have been run, each with its module, latest first. -/
def patchRuns (past : List Machine) : List (RecordId × Patch) := past.filterMap Machine.patching?

/-- The numbers of the patches for one module that have been queued for a locator. -/
def fromQueue (past : List Machine) (locator : Locator) (r : RecordId) (runs : List (RecordId × Patch)) :
    List Nat :=
  ((runs.filter (·.1 = r)).map (·.2.number)).filter (· ∈ (queuedFor past locator).map Patch.number)

/-- The patches that have been run and those that are due, in order. -/
def courses (past : List Machine) (m : Machine) : List (RecordId × Patch) := (patchRuns past).reverse ++ m.due

/-- The patches that have been run when the work of a frame is done, in order. -/
def gone (past : List Machine) (frame : Frame) : List (RecordId × Patch) :=
  (patchRuns past).reverse ++ frame.patch?.toList

theorem fromQueue_append (past : List Machine) (locator : Locator) (r : RecordId)
    (first second : List (RecordId × Patch)) :
    fromQueue past locator r (first ++ second) = fromQueue past locator r first ++ fromQueue past locator r second := by
  rw [fromQueue, List.filter_append, List.map_append, List.filter_append, fromQueue, fromQueue]

theorem mem_fromQueue {past : List Machine} {locator : Locator} {r : RecordId} {runs : List (RecordId × Patch)}
    {number : Nat} : number ∈ fromQueue past locator r runs ↔
      (∃ patch, (r, patch) ∈ runs ∧ patch.number = number) ∧
        number ∈ (queuedFor past locator).map Patch.number := by
  simp [fromQueue]

theorem filterMap_cons_toList {α β : Type} (f : α → Option β) (a : α) (l : List α) :
    (a :: l).filterMap f = (f a).toList ++ l.filterMap f := by
  rw [List.filterMap_cons]
  cases f a <;> rfl

section

variable {past : List Machine} {w w' : World} {frame : Frame} {rest frames : List Frame}

theorem courses_cons : courses past ⟨w, frame :: rest⟩ = gone past frame ++ rest.filterMap Frame.patch? := by
  rw [courses, Machine.due, filterMap_cons_toList, gone, List.append_assoc]

/-- What is due moves on when its turn comes, and a step puts its own patches before the others. -/
theorem courses_next : courses (⟨w, frame :: rest⟩ :: past) ⟨w', frames ++ rest⟩ =
    gone past frame ++ (frames.filterMap Frame.patch? ++ rest.filterMap Frame.patch?) := by
  have runs : patchRuns (⟨w, frame :: rest⟩ :: past) = frame.patch?.toList ++ patchRuns past :=
    filterMap_cons_toList ..
  have one : frame.patch?.toList.reverse = frame.patch?.toList := by cases frame.patch? <;> rfl
  rw [courses, runs, List.reverse_append, one, Machine.due, List.filterMap_append, gone]

theorem offered_next : offered (⟨w, frame :: rest⟩ :: past) = (frame.offers? w).toList ++ offered past :=
  filterMap_cons_toList ..

theorem queuedFor_next (locator : Locator) : queuedFor (⟨w, frame :: rest⟩ :: past) locator =
    (frame.queues? w).toList.filter (·.target = locator) ++ queuedFor past locator := by
  rw [queuedFor, filterMap_cons_toList, List.filter_append]
  rfl

end

/-! Every patch has been run, is due, or waits. -/

/-- Each patch that was passed on has a number of its own and is in one place. -/
structure Placed (past : List Machine) (m : Machine) : Prop where
  numbered : ∀ patch ∈ offered past, patch.number < m.world.issued
  distinct : ((offered past).map Patch.number).Nodup
  balance : ((courses past m).map Prod.snd ++ m.world.loader.waiting).Perm (offered past)

namespace Handles

variable {past : List Machine} {w w' : World} {frame : Frame} {rest frames : List Frame}

theorem patch?_taken (key : Locator) (r : RecordId) :
    (w.applyPatches key r).2.filterMap Frame.patch? = (w.loader.patchesFor key).map fun patch => (r, patch) := by
  have frames : (w.applyPatches key r).2 = (w.loader.patchesFor key).flatMap fun patch =>
    [.runPatch r patch, .replaceInterface r] := rfl
  rw [frames]
  induction w.loader.patchesFor key with
  | nil => rfl
  | cons first others ih =>
    rw [List.flatMap_cons, List.filterMap_append, ih]
    rfl

theorem patch?_ended (r : RecordId) : (w.finishCompile r).2.filterMap Frame.patch? = [] := by
  simp [World.finishCompile, Frame.patch?]

/-- What is passed on, and what is taken out of a queue, is due or waits. -/
theorem conserves (handles : Handles w frame w' frames) :
    ((frames.filterMap Frame.patch?).map Prod.snd ++ w'.loader.waiting).Perm
      ((frame.offers? w).toList ++ w.loader.waiting) := by
  cases handles with
  | aside silent untaken queues plain =>
    rw [silent, Frame.patch?_of_plain plain, Loader.waiting_of_same queues]
    exact .refl _
  | queued patch offers waits loader issued plain =>
    rw [offers, Frame.patch?_of_plain plain, loader]
    exact w.loader.waiting_queuePatch patch
  | patched patch r offers held compiled loader issued plain =>
    rw [offers, filterMap_cons_toList, Frame.patch?_of_plain plain, loader]
    exact .refl _
  | ended r =>
    rw [patch?_ended]
    exact .refl _
  | taken key r =>
    rw [patch?_taken, List.map_map, List.map_id'']
    · exact w.loader.waiting_takePatches key
    · exact fun _ => rfl

theorem balance (handles : Handles w frame w' frames)
    (balance : ((courses past ⟨w, frame :: rest⟩).map Prod.snd ++ w.loader.waiting).Perm (offered past)) :
    ((courses (⟨w, frame :: rest⟩ :: past) ⟨w', frames ++ rest⟩).map Prod.snd ++ w'.loader.waiting).Perm
      (offered (⟨w, frame :: rest⟩ :: past)) := by
  classical
  refine List.perm_iff_count.mpr fun patch => ?_
  have before := balance.count_eq patch
  have step := handles.conserves.count_eq patch
  rw [courses_next, offered_next]
  rw [courses_cons] at before
  simp only [List.map_append, List.count_append] at before step ⊢
  omega

theorem issued (handles : Handles w frame w' frames) {patch : Patch} (offers : frame.offers? w = some patch) :
    patch.number = w.issued ∧ w'.issued = w.issued + 1 := by
  obtain ⟨site, id, body, later, rfl, -, made⟩ := Frame.of_offers offers
  refine ⟨congrArg Patch.number made, ?_⟩
  cases handles with
  | aside silent => cases silent.symm.trans offers
  | queued _ _ _ _ issued => exact issued
  | patched _ _ _ _ _ _ issued => exact issued

theorem placed (handles : Handles w frame w' frames) (issued : w.issued ≤ w'.issued)
    (placed : Placed past ⟨w, frame :: rest⟩) :
    Placed (⟨w, frame :: rest⟩ :: past) ⟨w', frames ++ rest⟩ := by
  obtain ⟨numbered, distinct, balance⟩ := placed
  refine ⟨?_, ?_, handles.balance balance⟩
  · rw [offered_next]
    refine List.forall_mem_append.mpr ⟨fun patch member => ?_, fun patch member => ?_⟩
    · obtain ⟨number, next⟩ := handles.issued (Option.mem_toList.mp member)
      exact number ▸ next ▸ Nat.lt_succ_self _
    · exact Nat.lt_of_lt_of_le (numbered patch member) issued
  · rw [offered_next]
    cases offers : frame.offers? w with
    | none => exact distinct
    | some patch =>
      refine List.nodup_cons.mpr ⟨fun again => ?_, distinct⟩
      obtain ⟨earlier, member, same⟩ := List.mem_map.mp again
      have before := numbered earlier member
      rw [same, (handles.issued offers).1] at before
      exact Nat.lt_irrefl _ before

end Handles

/-! Who is patched is compiled. -/

/-- Modules are patched when they are compiled, and what is due for a module stands above the queues that are
still to be taken for it. -/
structure Attended (m : Machine) : Prop where
  compiled : ∀ f ∈ m.stack, ∀ r, f.patchee? = some r → m.world.loader.status r = .compiled
  lined : m.stack.Pairwise fun f g => ∀ key r patch, f = .applyPatches key r → g ≠ .runPatch r patch

section

variable {w w' : World} {frame : Frame} {rest frames : List Frame}

/-- A module that is about to be patched after a step was compiled before it, or has just been. -/
theorem Deed.patchee (deed : Deed w frame w' frames)
    (compiled : ∀ r, frame.patchee? = some r → w.loader.status r = .compiled) {f : Frame} (member : f ∈ frames)
    {r : RecordId} (patches : f.patchee? = some r) : w.loader.status r = .compiled ∨ frame = .finishCompile r := by
  cases f with
  | runPatch x patch =>
    cases patches
    obtain ⟨key, rfl, -⟩ | ⟨-, -, already⟩ := deed.runs member
    · exact .inl (compiled r rfl)
    · exact .inl already
  | applyPatches key x =>
    cases patches
    exact .inr (deed.collects member).1
  | _ => cases patches

theorem Attended.next (attended : Attended ⟨w, frame :: rest⟩) (deed : Deed w frame w' frames)
    (rises : ∀ r, w.loader.status r ≤ w'.loader.status r)
    (ending : ∀ r, frame = .finishCompile r →
      w.loader.status r = .compiling ∧ w'.loader.status r = .compiled) :
    Attended ⟨w', frames ++ rest⟩ := by
  have lasting {r : RecordId} (compiled : w.loader.status r = .compiled) : w'.loader.status r = .compiled :=
    Status.eq_compiled (compiled ▸ rises r)
  have here := attended.compiled frame (List.mem_cons_self ..)
  refine ⟨fun f member r patches => ?_, List.pairwise_append.mpr ⟨?_, ?_, ?_⟩⟩
  · rcases List.mem_append.mp member with new | old
    · obtain compiled | same := deed.patchee here new patches
      · exact lasting compiled
      · exact (ending r same).2
    · exact lasting (attended.compiled f (List.mem_cons_of_mem _ old) r patches)
  · refine List.pairwise_of_forall_mem_list fun f first g second key r patch => ?_
    rintro rfl rfl
    obtain rfl := (deed.collects first).1
    obtain ⟨key', same, -⟩ | ⟨-, -, compiled⟩ := deed.runs second
    · cases same
    · cases (ending r rfl).1.symm.trans compiled
  · exact (List.pairwise_cons.mp attended.lined).2
  · rintro f first g second key r patch rfl rfl
    obtain rfl := (deed.collects first).1
    have compiled := attended.compiled _ (List.mem_cons_of_mem _ second) r rfl
    cases (ending r rfl).1.symm.trans compiled

/-- What is due for a module has been dealt with when a queue is taken for it. -/
theorem Attended.none_due {key : Locator} {r : RecordId} (attended : Attended ⟨w, .applyPatches key r :: rest⟩)
    (past : List Machine) (locator : Locator) : fromQueue past locator r (rest.filterMap Frame.patch?) = [] := by
  refine List.eq_nil_iff_forall_not_mem.mpr fun number member => ?_
  obtain ⟨⟨patch, due, -⟩, -⟩ := mem_fromQueue.mp member
  obtain ⟨f, below, here⟩ := List.mem_filterMap.mp due
  have apart := (List.pairwise_cons.mp attended.lined).1 f below key r patch rfl
  cases f with
  | runPatch x other =>
    cases here
    exact apart rfl
  | _ => cases here

end

/-! In which order. -/

/-- The patches for a locator that have been run on a module, those that are due for it and those that wait,
one after the other, have been queued in this order. -/
def Ordered (past : List Machine) (m : Machine) (locator : Locator) (r : RecordId) : Prop :=
  (fromQueue past locator r (courses past m) ++
    (m.world.loader.patchesFor locator).map Patch.number).Sublist
      ((queuedFor past locator).map Patch.number).reverse

theorem queuedFor_subset_offered (past : List Machine) (locator : Locator) :
    queuedFor past locator ⊆ offered past := by
  intro patch member
  obtain ⟨member, -⟩ := List.mem_filter.mp member
  obtain ⟨moment, passed, queues⟩ := List.mem_filterMap.mp member
  refine List.mem_filterMap.mpr ⟨moment, passed, ?_⟩
  obtain ⟨frame, top, queues⟩ := Option.bind_eq_some_iff.mp queues
  exact Option.bind_eq_some_iff.mpr ⟨frame, top, (Option.filter_eq_some_iff.mp queues).1⟩

namespace Placed

variable {past : List Machine} {m : Machine}

theorem queued_old (placed : Placed past m) {locator : Locator} {number : Nat}
    (member : number ∈ (queuedFor past locator).map Patch.number) : number < m.world.issued := by
  obtain ⟨patch, queued, rfl⟩ := List.mem_map.mp member
  exact placed.numbered patch (queuedFor_subset_offered past locator queued)

theorem course_old (placed : Placed past m) {run : RecordId × Patch} (course : run ∈ courses past m) :
    run.2.number < m.world.issued :=
  placed.numbered run.2 (placed.balance.subset (List.mem_append_left _ (List.mem_map_of_mem course)))

/-- A patch that waits for one locator has not been queued for another. -/
theorem waits_apart (placed : Placed past m) {key locator : Locator}
    (targeted : ∀ patch ∈ m.world.loader.patchesFor key, patch.target = key) (apart : key ≠ locator)
    {patch : Patch} (waits : patch ∈ m.world.loader.patchesFor key) :
    patch.number ∉ (queuedFor past locator).map Patch.number := by
  intro member
  obtain ⟨other, queued, same⟩ := List.mem_map.mp member
  have first := placed.balance.subset (List.mem_append_right _
    (m.world.loader.patchesFor_subset_waiting key waits))
  have second := queuedFor_subset_offered past locator queued
  obtain rfl := List.inj_on_of_nodup_map placed.distinct first second same.symm
  have target : patch.target = locator := by simpa using (List.mem_filter.mp queued).2
  exact apart ((targeted patch waits).symm.trans target)

end Placed

section

variable {past : List Machine} {w w' : World} {frame : Frame} {rest frames : List Frame} {locator : Locator}
  {r : RecordId}

theorem queuedFor_unqueued (unqueued : frame.queues? w = none) (locator : Locator) :
    queuedFor (⟨w, frame :: rest⟩ :: past) locator = queuedFor past locator := by
  rw [queuedFor_next, unqueued]
  rfl

theorem fromQueue_unqueued (unqueued : frame.queues? w = none) (runs : List (RecordId × Patch)) :
    fromQueue (⟨w, frame :: rest⟩ :: past) locator r runs = fromQueue past locator r runs := by
  rw [fromQueue, queuedFor_unqueued unqueued, fromQueue]

/-- A step that queues nothing and brings nothing out of the queue for the module leaves patches in order. -/
theorem Ordered.aside (ordered : Ordered past ⟨w, frame :: rest⟩ locator r) (unqueued : frame.queues? w = none)
    (none : fromQueue past locator r (frames.filterMap Frame.patch?) = [])
    (fewer : (w'.loader.patchesFor locator).Sublist (w.loader.patchesFor locator)) :
    Ordered (⟨w, frame :: rest⟩ :: past) ⟨w', frames ++ rest⟩ locator r := by
  rw [Ordered, courses_cons, fromQueue_append] at ordered
  rw [Ordered, queuedFor_unqueued unqueued, fromQueue_unqueued unqueued, courses_next, fromQueue_append,
    fromQueue_append, none, List.nil_append]
  exact ((fewer.map Patch.number).append_left _).trans ordered

/-- A patch that is queued comes after all others. -/
theorem Ordered.queued (ordered : Ordered past ⟨w, frame :: rest⟩ locator r)
    (placed : Placed past ⟨w, frame :: rest⟩) {patch : Patch} (queues : frame.queues? w = some patch)
    (number : patch.number = w.issued) (plain : frames.filterMap Frame.patch? = [])
    (loader : w'.loader = w.loader.queuePatch patch) :
    Ordered (⟨w, frame :: rest⟩ :: past) ⟨w', frames ++ rest⟩ locator r := by
  have history : (queuedFor (⟨w, frame :: rest⟩ :: past) locator).map Patch.number =
      (if patch.target = locator then [patch.number] else []) ++
        (queuedFor past locator).map Patch.number := by
    rw [queuedFor_next, queues, Option.toList_some, List.filter_singleton]
    by_cases here : patch.target = locator <;> simp [here]
  -- What has been run or is due was passed on before, so that the new number is not among it.
  have old : fromQueue (⟨w, frame :: rest⟩ :: past) locator r (courses past ⟨w, frame :: rest⟩) =
      fromQueue past locator r (courses past ⟨w, frame :: rest⟩) := by
    refine List.filter_congr fun n member => ?_
    obtain ⟨run, course, rfl⟩ := List.mem_map.mp member
    have other : run.2.number ≠ patch.number :=
      Nat.ne_of_lt (number ▸ placed.course_old (List.mem_filter.mp course).1)
    rw [history]
    split <;> simp [other]
  rw [Ordered, history, courses_next, plain, List.nil_append, ← courses_cons, old, loader,
    Loader.patchesFor_queuePatch, List.map_append, ← List.append_assoc, List.reverse_append]
  split
  · exact ordered.append_right [patch.number]
  · exact (List.append_nil _).symm ▸ (List.append_nil _).symm ▸ ordered

/-- A patch that is run at once has never been queued. -/
theorem Placed.unqueued (placed : Placed past ⟨w, frame :: rest⟩) {patch : Patch}
    (number : patch.number = w.issued) (x : RecordId) : fromQueue past locator r [(x, patch)] = [] := by
  refine List.eq_nil_iff_forall_not_mem.mpr fun n member => ?_
  obtain ⟨⟨other, course, rfl⟩, queued⟩ := mem_fromQueue.mp member
  cases List.mem_singleton.mp course
  exact Nat.lt_irrefl _ (number ▸ placed.queued_old queued)

/-- A queue that is taken for the module comes after all that was due for it. -/
theorem Ordered.taken (ordered : Ordered past ⟨w, .applyPatches locator r :: rest⟩ locator r)
    (none_due : fromQueue past locator r (rest.filterMap Frame.patch?) = []) :
    Ordered (⟨w, .applyPatches locator r :: rest⟩ :: past)
      ⟨(w.applyPatches locator r).1, (w.applyPatches locator r).2 ++ rest⟩ locator r := by
  rw [Ordered, courses_cons, fromQueue_append, none_due, List.append_nil] at ordered
  have queued : fromQueue past locator r ((w.loader.patchesFor locator).map fun patch => (r, patch)) =
      (w.loader.patchesFor locator).map Patch.number := by
    have own : ((w.loader.patchesFor locator).map fun patch => (r, patch)).filter (·.1 = r) =
        (w.loader.patchesFor locator).map fun patch => (r, patch) := List.filter_eq_self.mpr (by simp)
    rw [fromQueue, own, List.map_map]
    refine List.filter_eq_self.mpr fun n member => ?_
    simpa using ordered.subset (List.mem_append_right _ member)
  have left : (w.applyPatches locator r).1.loader.patchesFor locator = [] :=
    (w.loader.patchesFor_takePatches locator locator).trans (if_pos rfl)
  rw [Ordered, queuedFor_unqueued rfl, fromQueue_unqueued rfl, courses_next, Handles.patch?_taken,
    fromQueue_append, fromQueue_append, none_due, queued, left, List.append_nil, List.map_nil, List.append_nil]
  exact ordered

end

/-- Patches stay in order whatever the next frame does. -/
theorem Handles.ordered {past : List Machine} {w w' : World} {frame : Frame} {rest frames : List Frame}
    (handles : Handles w frame w' frames) (placed : Placed past ⟨w, frame :: rest⟩)
    (attended : Attended ⟨w, frame :: rest⟩)
    (targeted : ∀ key, ∀ patch ∈ w.loader.patchesFor key, patch.target = key) {locator : Locator} {r : RecordId}
    (ordered : Ordered past ⟨w, frame :: rest⟩ locator r) :
    Ordered (⟨w, frame :: rest⟩ :: past) ⟨w', frames ++ rest⟩ locator r := by
  have number {patch : Patch} (offers : frame.offers? w = some patch) := (handles.issued offers).1
  have none : fromQueue past locator r [] = [] := rfl
  cases handles with
  | aside silent untaken queues plain =>
    refine ordered.aside (Frame.queues?_of_silent silent) (by rw [Frame.patch?_of_plain plain, none]) ?_
    rw [Loader.patchesFor, queues, Loader.patchesFor]
  | queued patch offers waits loader issued plain =>
    refine ordered.queued placed ?_ (number offers) (Frame.patch?_of_plain plain) loader
    rw [Frame.queues?_of_offers offers, if_neg fun there => ?_]
    obtain ⟨r, held, compiled⟩ := Loader.isCompiled_iff.mp there
    exact waits r held compiled
  | patched patch x offers held compiled loader issued plain =>
    refine ordered.aside ?_ ?_ (by rw [loader])
    · rw [Frame.queues?_of_offers offers, if_pos (Loader.isCompiled_iff.mpr ⟨x, held, compiled⟩)]
    · rw [filterMap_cons_toList, Frame.patch?_of_plain plain]
      exact placed.unqueued (number offers) x
  | ended x =>
    refine ordered.aside rfl ?_ (.refl _)
    rw [patch?_ended, none]
  | taken key x =>
    by_cases here : key = locator ∧ x = r
    · obtain ⟨rfl, rfl⟩ := here
      exact ordered.taken (attended.none_due past key)
    · refine ordered.aside rfl (List.eq_nil_iff_forall_not_mem.mpr fun n member => ?_) ?_
      · rw [patch?_taken] at member
        obtain ⟨⟨patch, course, rfl⟩, queued⟩ := mem_fromQueue.mp member
        obtain ⟨other, waits, same⟩ := List.mem_map.mp course
        cases same
        exact placed.waits_apart (targeted key) (fun same => here ⟨same, rfl⟩) waits queued
      · have left := w.loader.patchesFor_takePatches key locator
        change (Loader.patchesFor (w.loader.takePatches key).1 locator).Sublist _
        rw [left]
        split
        · exact List.nil_sublist _
        · exact .refl _

section

variable {host : Action → Prop} {setup : Setup} {past : List Machine} {m : Machine}

theorem Run.handles {w : World} {frame : Frame} {rest : List Frame}
    (run : Run host (.fresh setup) past ⟨w, frame :: rest⟩) :
    Handles w frame (frame.exec w).1 (frame.exec w).2 :=
  Frame.handles ((founded_always run).stack frame (List.mem_cons_self ..)) run.sound

theorem placed_always (run : Run host (.fresh setup) past m) : Placed past m := by
  refine run.invariant (P := Placed) ?_ ?_ ?_
  · rw [Machine.fresh, World.start_bare]
    exact ⟨List.forall_mem_nil _, List.nodup_nil, .refl _⟩
  · intro past w frame rest run placed
    exact run.handles.placed (frame.effect run.sound).tame.issued placed
  · intro past w action _ _ placed
    exact ⟨placed.numbered, placed.distinct, placed.balance⟩

theorem attended_always (run : Run host (.fresh setup) past m) : Attended m := by
  refine run.invariant (P := fun _ m => Attended m) ?_ ?_ ?_
  · exact ⟨List.forall_mem_nil _, .nil⟩
  · intro past w frame rest run attended
    refine attended.next run.deed run.turn.rises ?_
    rintro r rfl
    have compiling := ((singleFlight_always run).status r).mpr (.inr rfl)
    have known : w.loader.status r ≠ .unknown := fun unknown => by cases unknown.symm.trans compiling
    refine ⟨compiling, ?_⟩
    change Loader.status (w.loader.setStatus r .compiled) r = .compiled
    rw [Loader.status_setStatus, if_pos ⟨rfl, Loader.index_lt_of_known known⟩]
  · intro past w action _ _ _
    refine ⟨fun f member r patches => ?_, List.pairwise_singleton _ _⟩
    cases List.mem_singleton.mp member
    cases patches

theorem ordered_always (run : Run host (.fresh setup) past m) (locator : Locator) (r : RecordId) :
    Ordered past m locator r := by
  refine run.invariant (P := fun past m => Ordered past m locator r) ?_ ?_ ?_
  · rw [Machine.fresh, World.start_bare]
    exact .refl _
  · intro past w frame rest run ordered
    exact run.handles.ordered (placed_always run) (attended_always run)
      (fun key patch waits => patchesFor_target run waits) ordered
  · intro past w action _ _ ordered
    exact ordered

/-- What the machine has left is what it comes to next, or was passed later. -/
theorem Run.next_passed {first : Machine} (run : Run host first past m) {moment next : Machine}
    (passed : moment ∈ past) (stepped : moment.step? = some next) : next = m ∨ next ∈ past := by
  induction run with
  | start => cases passed
  | @work past before after run step ih =>
    rcases List.mem_cons.mp passed with rfl | earlier
    · exact .inl (Option.some.inj (stepped.symm.trans step))
    · obtain rfl | later := ih earlier
      · exact .inr (List.mem_cons_self ..)
      · exact .inr (List.mem_cons_of_mem _ later)
  | @act past w run action allowed ih =>
    rcases List.mem_cons.mp passed with rfl | earlier
    · cases stepped
    · obtain rfl | later := ih earlier
      · exact .inr (List.mem_cons_self ..)
      · exact .inr (List.mem_cons_of_mem _ later)

/-- The factory of a compiled module has been entered once and has ended. -/
theorem factory_over (run : Run host (.fresh setup) past m) {r : RecordId}
    (compiled : m.world.loader.status r = .compiled) (outside : m.entering? = none) :
    r ∉ running m.stack ∧
      ((m.world.loader.record r).factory.map Factory.isFunction = some true → (entered past).count r = 1) := by
  have flight := singleFlight_always run
  refine ⟨fun inside => ?_, fun function => ?_⟩
  · rw [flight.stage.running_eq] at inside
    cases compiled.symm.trans ((flight.status r).mpr (.inl inside))
  · have entries := flight.entries r
    have late : .compiling ≤ (m.world.loader.record r).status := by
      rw [show (m.world.loader.record r).status = .compiled from compiled]
      decide
    rw [outside, Record.hasRun, function, decide_eq_true late] at entries
    exact entries

theorem Placed.runs_distinct (placed : Placed past m) :
    ((patchRuns past).map fun run => run.2.number).Nodup := by
  have numbers := (placed.balance.map Patch.number).nodup_iff.mpr placed.distinct
  rw [List.map_append, List.map_map, courses, List.map_append, List.map_reverse, List.append_assoc] at numbers
  exact List.nodup_reverse.mp (List.nodup_append.mp numbers).1

theorem Ordered.runs {locator : Locator} {r : RecordId} (ordered : Ordered past m locator r) :
    (fromQueue past locator r (patchRuns past)).Sublist ((queuedFor past locator).map Patch.number) := by
  have reversed : fromQueue past locator r (patchRuns past).reverse =
      (fromQueue past locator r (patchRuns past)).reverse := by
    simp only [fromQueue, List.filter_reverse, List.map_reverse]
  rw [Ordered, courses, fromQueue_append, reversed, List.append_assoc] at ordered
  exact List.reverse_sublist.mp ((List.sublist_append_left _ _).trans ordered)

/-- A patch for a compiled module is entered by the step after the one that passes it on. -/
theorem patched_at_once (run : Run host (.fresh setup) past m) {moment : Machine} (passed : moment ∈ past)
    {site : Site} {id : String} {body rest : Script} {below : List Frame} {target : Locator} {r : RecordId}
    (calls : moment.stack = .script site (.modify id body :: rest) :: below)
    (resolved : moment.world.loader.resolve id none = some target)
    (held : moment.world.loader.entry? target = some r) (compiled : moment.world.loader.status r = .compiled) :
    m.patching? = some (r, ⟨moment.world.issued, target, body⟩) ∨
      (r, ⟨moment.world.issued, target, body⟩) ∈ patchRuns past := by
  obtain ⟨w, stack⟩ := moment
  obtain rfl : stack = _ := calls
  have frames : (w.modify id body).2 = [.runPatch r ⟨w.issued, target, body⟩, .replaceInterface r] := by
    simp only [World.modify, resolved, held, compiled, World.newPatch, if_true]
  have stepped := Machine.step?_cons w (.script site (.modify id body :: rest)) below
  have patching : Machine.patching? ⟨(Frame.exec w (.script site (.modify id body :: rest))).1,
      (Frame.exec w (.script site (.modify id body :: rest))).2 ++ below⟩ =
        some (r, ⟨w.issued, target, body⟩) := by
    rw [World.exec_modify, frames]
    rfl
  obtain rfl | earlier := run.next_passed passed stepped
  · exact .inl patching
  · exact .inr (List.mem_filterMap.mpr ⟨_, earlier, patching⟩)

/-- Patches are numbered as they are passed on, and none is run twice: each has been run, is due, or waits. A
patch is entered when its module is compiled and the module's factory has ended. Those that have been queued
for one locator and run on one module have been run in the order of the queue. What is passed on for a
compiled module is entered next, so that it has been run when the call returns. -/
theorem patch_discipline (run : Run host (.fresh setup) past m) :
    ((offered past).map Patch.number).Nodup ∧
    ((patchRuns past).map fun run => run.2.number).Nodup ∧
    ((courses past m).map Prod.snd ++ m.world.loader.waiting).Perm (offered past) ∧
    (∀ r patch, m.patching? = some (r, patch) →
      m.world.loader.status r = .compiled ∧ r ∉ running m.stack ∧
      ((m.world.loader.record r).factory.map Factory.isFunction = some true → (entered past).count r = 1)) ∧
    (∀ locator r, (fromQueue past locator r (patchRuns past)).Sublist
      ((queuedFor past locator).map Patch.number)) ∧
    (∀ moment ∈ past, ∀ site id body rest below target r,
      moment.stack = .script site (.modify id body :: rest) :: below →
      moment.world.loader.resolve id none = some target → moment.world.loader.entry? target = some r →
      moment.world.loader.status r = .compiled →
      let patch : Patch := ⟨moment.world.issued, target, body⟩
      (m.patching? = some (r, patch) ∨ (r, patch) ∈ patchRuns past) ∧
      (m.stack = afterAction site (.modify id body) rest below → (r, patch) ∈ patchRuns past)) := by
  have placed := placed_always run
  refine ⟨placed.distinct, placed.runs_distinct, placed.balance, fun r patch patching => ?_,
    fun locator r => (ordered_always run locator r).runs, ?_⟩
  · obtain ⟨frame, top, patches⟩ := Option.bind_eq_some_iff.mp patching
    cases frame with
    | runPatch x other =>
      cases patches
      have compiled := (attended_always run).compiled _ (List.mem_of_mem_head? top) r rfl
      refine ⟨compiled, factory_over run compiled ?_⟩
      unfold Machine.entering?
      split
      · rename_i stack
        rw [stack] at top
        cases top
      · rfl
    | _ => cases patches
  · intro moment passed site id body rest below target r calls resolved held compiled
    have course := patched_at_once run passed calls resolved held compiled
    refine ⟨course, fun returned => course.resolve_left fun patching => ?_⟩
    rw [Machine.patching?, returned] at patching
    cases patching

end

/-- Two patches wait until their module is compiled; the first passes on another one for it, which is run
before the second. -/
theorem patch_discipline_stacked :
    ∃ past m, Run (fun _ => True) (.fresh .stacked) past m ∧ m.stack = [] ∧
      (patchRuns past).map (fun run => run.2.number) = [1, 3, 0] ∧
      (queuedFor past ⟨"mem:a"⟩).map Patch.number = [1, 0] ∧
      (fromQueue past ⟨"mem:a"⟩ ⟨0⟩ (patchRuns past)).Sublist ((queuedFor past ⟨"mem:a"⟩).map Patch.number) := by
  have fresh : Run (fun _ => True) (.fresh .stacked) [] (.fresh .stacked) := .start
  have run := fresh.played 60 [.modify "a" [.modify "a" []], .modify "a" [], .useModules ["a"] "page" []]
    (fun _ _ => trivial) (by decide +kernel)
  obtain ⟨-, -, -, -, order, -⟩ := patch_discipline run
  exact ⟨_, _, run, rfl, by decide +kernel, by decide +kernel, order ⟨"mem:a"⟩ ⟨0⟩⟩

end ModuleLoader
