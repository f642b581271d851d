import ModuleLoader.Proofs.Patches

/-! The ways of a patch. It is passed on, and then it waits in a queue or is run at once; a queue is taken as
a whole when the compilation of a module ends. Most frames have nothing to do with any of this, and the
others are told apart here. -/
namespace ModuleLoader

open Loader (Sound)

/-- The patch that a frame passes on, if it does. -/
def Frame.offers? (w : World) : Frame → Option Patch
  | .script _ (.modify id body :: _) => (w.loader.resolve id none).map fun target => ⟨w.issued, target, body⟩
  | _ => none

/-- A locator stands for a compiled module. -/
def Loader.isCompiled (l : Loader) (locator : Locator) : Bool :=
  (l.entry? locator).any fun r => l.status r = .compiled

/-- The patch that a frame queues because its locator does not stand for a compiled module. -/
def Frame.queues? (w : World) (frame : Frame) : Option Patch :=
  (frame.offers? w).filter fun patch => !w.loader.isCompiled patch.target

/-- The module that a frame is about to patch. -/
def Frame.patchee? : Frame → Option RecordId
  | .runPatch r _ | .applyPatches _ r => some r
  | _ => none

/-- All patches that wait. -/
def Loader.waiting (l : Loader) : List Patch := l.patches.entries.flatMap Prod.snd

namespace Loader

variable {l l' : Loader}

theorem waiting_of_same (same : l'.patches = l.patches) : l'.waiting = l.waiting := by rw [waiting, same, waiting]

/-- A patch waits behind those that have been queued under its locator before. -/
theorem patchesFor_queuePatch (l : Loader) (patch : Patch) (locator : Locator) :
    (l.queuePatch patch).patchesFor locator =
      l.patchesFor locator ++ if patch.target = locator then [patch] else [] := by
  simp only [patchesFor, queuePatch, note, OrderedMap.get?_insert]
  split
  · rename_i here
    rw [here]
    rfl
  · rw [List.append_nil]

theorem waiting_queuePatch (l : Loader) (patch : Patch) :
    (l.queuePatch patch).waiting.Perm (patch :: l.waiting) := by
  cases found : l.patches.get? patch.target with
  | none =>
    have entries := OrderedMap.entries_insert_of_absent found [patch]
    simp only [waiting, queuePatch, note, found, Option.getD_none, List.nil_append, entries,
      List.flatMap_append, List.flatMap_singleton]
    exact List.perm_append_comm
  | some queue =>
    obtain ⟨before, after, split, placed, -⟩ := OrderedMap.entries_split found
    simp only [waiting, queuePatch, note, found, Option.getD_some, placed, split, List.flatMap_append,
      List.flatMap_cons, List.append_assoc, List.singleton_append]
    exact (List.perm_middle.append_left _).trans List.perm_middle

/-- Whoever takes a queue takes it as a whole. -/
theorem patchesFor_takePatches (l : Loader) (key locator : Locator) :
    (l.takePatches key).1.patchesFor locator = if key = locator then [] else l.patchesFor locator := by
  simp only [patchesFor, takePatches, OrderedMap.get?_erase]
  split <;> rfl

theorem waiting_takePatches (l : Loader) (key : Locator) :
    ((l.takePatches key).2 ++ (l.takePatches key).1.waiting).Perm l.waiting := by
  cases found : l.patches.get? key with
  | none => simp only [waiting, takePatches, found, OrderedMap.erase_of_absent found, Option.getD_none,
      List.nil_append, List.Perm.refl]
  | some queue =>
    obtain ⟨before, after, split, -, dropped⟩ := OrderedMap.entries_split found
    simp only [waiting, takePatches, found, Option.getD_some, dropped, split, List.flatMap_append,
      List.flatMap_cons]
    exact List.perm_append_comm_assoc _ _ _

theorem isCompiled_iff {locator : Locator} :
    l.isCompiled locator = true ↔ ∃ r, l.entry? locator = some r ∧ l.status r = .compiled := by
  simp only [isCompiled, Option.any_eq_true, decide_eq_true_eq]

theorem patchesFor_subset_waiting (l : Loader) (locator : Locator) : l.patchesFor locator ⊆ l.waiting := by
  intro patch member
  exact (l.waiting_takePatches locator).subset (List.mem_append_left _ member)

end Loader

/-- What a frame does about patches. -/
inductive Handles (w : World) : Frame → World → List Frame → Prop where
  | aside {frame : Frame} {w' : World} {frames : List Frame} (silent : frame.offers? w = none)
      (untaken : ∀ key r, frame ≠ .applyPatches key r) (queues : w'.loader.patches = w.loader.patches)
      (plain : ∀ f ∈ frames, f.patchee? = none) : Handles w frame w' frames
  | queued {frame : Frame} {w' : World} {frames : List Frame} (patch : Patch)
      (offers : frame.offers? w = some patch)
      (waits : ∀ r, w.loader.entry? patch.target = some r → w.loader.status r ≠ .compiled)
      (loader : w'.loader = w.loader.queuePatch patch) (issued : w'.issued = w.issued + 1)
      (plain : ∀ f ∈ frames, f.patchee? = none) : Handles w frame w' frames
  | patched {frame : Frame} {w' : World} {frames : List Frame} (patch : Patch) (r : RecordId)
      (offers : frame.offers? w = some patch) (held : w.loader.entry? patch.target = some r)
      (compiled : w.loader.status r = .compiled) (loader : w'.loader = w.loader)
      (issued : w'.issued = w.issued + 1) (plain : ∀ f ∈ frames, f.patchee? = none) :
      Handles w frame w' (.runPatch r patch :: frames)
  | ended (r : RecordId) : Handles w (.finishCompile r) (w.finishCompile r).1 (w.finishCompile r).2
  | taken (key : Locator) (r : RecordId) :
      Handles w (.applyPatches key r) (w.applyPatches key r).1 (w.applyPatches key r).2

namespace Frame

variable {w : World} {frame : Frame}

theorem plain_of_ordinary {frames : List Frame} (ordinary : ∀ f ∈ frames, f.isOrdinary = true) :
    ∀ f ∈ frames, f.patchee? = none := by
  intro f member
  have here := ordinary f member
  cases f <;> first | rfl | cases here

theorem patch?_of_plain {frames : List Frame} (plain : ∀ f ∈ frames, f.patchee? = none) :
    frames.filterMap patch? = [] := by
  refine List.filterMap_eq_nil_iff.mpr fun f member => ?_
  have here := plain f member
  cases f <;> first | rfl | cases here

/-- Only one kind of action passes patches on. -/
theorem of_offers {patch : Patch} (offers : frame.offers? w = some patch) :
    ∃ site id body rest, frame = .script site (.modify id body :: rest) ∧
      w.loader.resolve id none = some patch.target ∧ patch = ⟨w.issued, patch.target, body⟩ := by
  unfold offers? at offers
  split at offers
  · rename_i site id body rest
    obtain ⟨target, resolved, rfl⟩ := Option.map_eq_some_iff.mp offers
    exact ⟨site, id, body, rest, rfl, resolved, rfl⟩
  · cases offers

theorem queues?_of_silent (silent : frame.offers? w = none) : frame.queues? w = none := by
  rw [queues?, silent, Option.filter_none]

theorem queues?_of_offers {patch : Patch} (offers : frame.offers? w = some patch) :
    frame.queues? w = if w.loader.isCompiled patch.target then none else some patch := by
  rw [queues?, offers, Option.filter_some]
  cases w.loader.isCompiled patch.target <;> rfl

end Frame

namespace World

variable {w : World} {site : Site} {id : String} {body rest : Script}

/-- A modification is reported, queued, or run before anything else. -/
theorem modify_handles {below : List Frame} (plain : ∀ f ∈ below, f.patchee? = none) :
    Handles w (.script site (.modify id body :: rest)) (w.modify id body).1 ((w.modify id body).2 ++ below) := by
  unfold modify
  split
  · rename_i unresolved
    refine .aside ?_ (fun _ _ => Frame.noConfusion) (Loader.emit_stays _ _).patches plain
    simp only [Frame.offers?, unresolved, Option.map_none]
  · rename_i target resolved
    have offers : Frame.offers? w (.script site (.modify id body :: rest)) = some ⟨w.issued, target, body⟩ := by
      simp only [Frame.offers?, resolved, Option.map_some]
    dsimp only
    split
    · rename_i r held
      split
      · rename_i compiled
        refine .patched _ r offers held compiled rfl rfl ?_
        exact List.forall_mem_cons.mpr ⟨rfl, plain⟩
      · rename_i other
        refine .queued _ offers (fun x there => ?_) rfl rfl plain
        cases held.symm.trans there
        exact other
    · rename_i absent
      refine .queued _ offers (fun x there => ?_) rfl rfl plain
      cases absent.symm.trans there

/-- What a modification leaves to be done, down to its return. -/
theorem exec_modify : Frame.exec w (.script site (.modify id body :: rest)) =
    ((w.modify id body).1,
      (w.modify id body).2 ++ [.conclude site (.reply "modify" (.text "returned")), .script site rest]) := by
  change ((w.modify id body).1, (w.modify id body).2 ++ [_] ++ [_]) = _
  rw [List.append_assoc]
  rfl

end World

/-- Whatever the next frame is, it does one of these things about patches. -/
theorem Frame.handles {w : World} {frame : Frame} (bears : w.loader.Bears frame.relies) (sound : Sound w.loader) :
    Handles w frame (frame.exec w).1 (frame.exec w).2 := by
  by_cases modifies : ∃ site id body rest, frame = .script site (.modify id body :: rest)
  · obtain ⟨site, id, body, rest, rfl⟩ := modifies
    rw [World.exec_modify]
    exact World.modify_handles (by simp [patchee?])
  · have silent : frame.offers? w = none := Option.eq_none_iff_forall_not_mem.mpr fun patch offers =>
      have ⟨site, id, body, rest, same, _⟩ := of_offers offers
      modifies ⟨site, id, body, rest, same⟩
    have deed := Frame.deed bears
    generalize (frame.exec w).1 = w', (frame.exec w).2 = frames at *
    have aside (untaken : ∀ key r, frame ≠ .applyPatches key r) (queues : w'.loader.patches = w.loader.patches)
        (plain : ∀ f ∈ frames, f.patchee? = none) : Handles w frame w' frames :=
      .aside silent untaken queues plain
    cases deed with
    | aside outside stays files ordinary =>
      refine aside (fun key r => ?_) stays.patches (plain_of_ordinary ordinary)
      rintro rfl
      cases outside
    | queued site rest id body => exact absurd ⟨site, id, body, rest, rfl⟩ modifies
    | patched site rest id body => exact absurd ⟨site, id, body, rest, rfl⟩ modifies
    | removed site rest key loader fetcher ordinary =>
      exact aside (fun _ _ => Frame.noConfusion) (by rw [loader]; rfl) (plain_of_ordinary ordinary)
    | registered site action rest registration registers loader fetcher ordinary =>
      exact aside (fun _ _ => Frame.noConfusion) (Loader.registered_becomes sound loader).patches
        (plain_of_ordinary ordinary)
    | filed site rest resource draft loader ordinary =>
      exact aside (fun _ _ => Frame.noConfusion) (by rw [loader]) (plain_of_ordinary ordinary)
    | handed site rest index token held loader files ordinary =>
      refine aside (fun _ _ => Frame.noConfusion) (by rw [loader]) ?_
      exact List.forall_mem_cons.mpr ⟨rfl, plain_of_ordinary ordinary⟩
    | answered token takes loader files ordinary =>
      refine aside (fun key r => ?_) ?_ (List.forall_mem_cons.mpr ⟨rfl, plain_of_ordinary ordinary⟩)
      · rintro rfl
        cases takes
      · rw [(World.evaluate_becomes (loader ▸ sound) token.resource).patches, loader]
    | entered x rest b =>
      refine aside (fun _ _ => Frame.noConfusion) (World.enter_becomes sound x b).patches fun f member => ?_
      rcases List.mem_append.mp member with first | last
      · obtain rfl | ⟨token, rfl⟩ := w.enter_frames x b _ first <;> rfl
      · obtain rfl := List.mem_singleton.mp last
        rfl
    | finished token =>
      refine aside (fun _ _ => Frame.noConfusion) (Loader.finishFetch_becomes sound token).patches ?_
      intro f member
      obtain ⟨waiter, -, rfl⟩ := List.mem_map.mp member
      rfl
    | ended r => exact .ended r
    | applied key r => exact .taken key r

end ModuleLoader
