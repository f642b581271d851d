import ModuleLoader.Proofs.Effects.Deeds
import ModuleLoader.Proofs.Compilation

/-! Patches that wait for their modules. A module is patched under the names that it has when its
compilation ends, so a patch is left behind by a module that goes by other names, and it meets the wrong
module where a name has passed to another one. -/
namespace ModuleLoader

open Loader (Sound)

/-- The patches that wait under a locator, in the order in which they were queued. -/
def Loader.patchesFor (l : Loader) (locator : Locator) : List Patch := (l.patches.get? locator).getD []

/-- The next step makes a locator stand for a compiled module that is not patched under it: neither has the
locator stood for the module already, nor is it one of its names while its compilation ends. -/
def Machine.Misses (m : Machine) (locator : Locator) : Prop :=
  ∃ next r, m.step? = some next ∧ next.world.loader.entry? locator = some r ∧
    next.world.loader.status r = .compiled ∧
    ¬ (m.world.loader.entry? locator = some r ∧
      (m.world.loader.status r = .compiled ∨ locator ∈ (m.world.loader.record r).patchKeys))

/-- The compilation of a module ends, and it is patched under a locator. -/
def Machine.Collects (m : Machine) (locator : Locator) (r : RecordId) : Prop :=
  m.stack.head? = some (.finishCompile r) ∧ locator ∈ (m.world.loader.record r).patchKeys

/-- A record goes by a name that does not stand for it. -/
def Loader.Misnames (l : Loader) (r : RecordId) (locator : Locator) : Prop :=
  r.index < l.records.size ∧ locator ∈ (l.record r).patchKeys ∧ l.entry? locator ≠ some r

/-- What each step of the past has kept still holds. -/
theorem Run.lasting {host : Action → Prop} {first m : Machine} {past : List Machine} {Q : Machine → Prop}
    (run : Run host first past m)
    (worked : ∀ earlier w frame rest, ⟨w, frame :: rest⟩ ∈ past →
      Run host first earlier ⟨w, frame :: rest⟩ → Q ⟨w, frame :: rest⟩ →
      Q ⟨(frame.exec w).1, (frame.exec w).2 ++ rest⟩)
    (acted : ∀ w action, Q ⟨w, []⟩ → Q ⟨w, [.script .outer [action]]⟩)
    {moment : Machine} (passed : moment ∈ past) (before : Q moment) : Q m := by
  induction run with
  | start => cases passed
  | @work past m next run stepped ih =>
    have here : Q m := by
      rcases List.mem_cons.mp passed with rfl | passed
      · exact before
      · exact ih (fun earlier w frame rest member => worked earlier w frame rest
          (List.mem_cons_of_mem _ member)) passed
    obtain ⟨w, stack⟩ := m
    cases stack with
    | nil => cases stepped
    | cons frame rest =>
      cases Option.some.inj stepped
      exact worked past w frame rest (List.mem_cons_self ..) run here
  | @act past w run action allowed ih =>
    refine acted w action ?_
    rcases List.mem_cons.mp passed with rfl | passed
    · exact before
    · exact ih (fun earlier w frame rest member => worked earlier w frame rest
        (List.mem_cons_of_mem _ member)) passed

/-- Only the end of its compilation makes a module compiled. -/
theorem Turn.compiled {w w' : World} {frame : Frame} {frames : List Frame} (turn : Turn w frame w' frames)
    (bears : w.loader.Bears frame.relies) {r : RecordId} (compiled : w'.loader.status r = .compiled) :
    w.loader.status r = .compiled ∨ frame = .finishCompile r := by
  have begun {x : RecordId} (begins : w.loader.Begins x w'.loader)
      (requested : .fetching ≤ w.loader.status x) : w.loader.status r = .compiled := by
    by_cases here : r = x
    · subst here
      obtain ⟨interface, own⟩ := begins.own (Status.ne_unknown_of_le (a := .fetching) (by decide) requested)
      rw [Loader.status, own] at compiled
      cases compiled
    · rw [Loader.status, begins.others r here] at compiled
      exact compiled
  cases turn with
  | aside outside moves =>
    exact .inl ((moves.late (by rw [compiled]; decide)).symm.trans compiled)
  | running x body source begins => exact .inl (begun begins (bears (x, .fetching) (List.mem_singleton_self _)))
  | exporting x begins => exact .inl (begun begins (bears (x, .fetching) (List.mem_singleton_self _)))
  | entered x body loader => exact .inl (loader ▸ compiled)
  | left loader =>
    rw [loader] at compiled
    exact .inl compiled
  | finished x loader =>
    rw [loader, Loader.status_setStatus] at compiled
    split at compiled
    · rename_i here
      exact .inr (by rw [here.1])
    · exact .inl compiled

/-! What a step does to the queues. -/

namespace Deed

variable {w w' : World} {frame : Frame} {frames : List Frame}

/-- A patch that waits after a step has waited before, and its queue is not taken; or it has just been
queued, under the locator that was meant, because no compiled module is there. -/
theorem patchesFor (deed : Deed w frame w' frames) (sound : Sound w.loader) {locator : Locator}
    {patch : Patch} (waits : patch ∈ w'.loader.patchesFor locator) :
    (patch ∈ w.loader.patchesFor locator ∧ ∀ r, frame ≠ .applyPatches locator r) ∨
      (patch.target = locator ∧ w'.loader = w.loader.queuePatch patch ∧
        ∀ r, w.loader.entry? locator = some r → w.loader.status r ≠ .compiled) := by
  have same (patches : w'.loader.patches = w.loader.patches) (other : ∀ r, frame ≠ .applyPatches locator r) :
      patch ∈ w.loader.patchesFor locator ∧ ∀ r, frame ≠ .applyPatches locator r := by
    rw [Loader.patchesFor, patches] at waits
    exact ⟨waits, other⟩
  cases deed with
  | aside outside stays =>
    refine .inl (same stays.patches fun r => ?_)
    rintro rfl
    cases outside
  | queued site rest id body queued absent loader =>
    by_cases here : queued.target = locator
    · subst here
      rw [Loader.patchesFor, loader, Loader.queuePatch] at waits
      simp only [Loader.note, OrderedMap.get?_insert, if_pos, Option.getD_some, List.mem_append,
        List.mem_singleton] at waits
      obtain earlier | rfl := waits
      · exact .inl ⟨earlier, fun r => Frame.noConfusion⟩
      · exact .inr ⟨rfl, loader, absent⟩
    · rw [Loader.patchesFor, loader, Loader.queuePatch] at waits
      simp only [Loader.note, OrderedMap.get?_insert, if_neg here] at waits
      exact .inl ⟨waits, fun r => Frame.noConfusion⟩
  | patched site rest id body patch r held compiled loader =>
    exact .inl (same (by rw [loader]) fun r => Frame.noConfusion)
  | removed site rest key loader => exact .inl (same (by rw [loader]; rfl) fun r => Frame.noConfusion)
  | registered site action rest registration registers loader =>
    exact .inl (same (Loader.registered_becomes sound loader).patches fun r => Frame.noConfusion)
  | filed site rest resource draft loader => exact .inl (same (by rw [loader]) fun r => Frame.noConfusion)
  | handed site rest index token held loader =>
    exact .inl (same (by rw [loader]) fun r => Frame.noConfusion)
  | answered token takes loader =>
    refine .inl (same ?_ fun r => ?_)
    · rw [(World.evaluate_becomes (loader ▸ sound) token.resource).patches, loader]
    · rintro rfl
      cases takes
  | entered x rest b => exact .inl (same (World.enter_becomes sound x b).patches fun r => Frame.noConfusion)
  | finished token =>
    exact .inl (same (Loader.finishFetch_becomes sound token).patches fun r => Frame.noConfusion)
  | ended r => exact .inl (same rfl fun r => Frame.noConfusion)
  | applied key r =>
    change patch ∈ ((w.loader.patches.erase key).get? locator).getD [] at waits
    rw [OrderedMap.get?_erase] at waits
    split at waits
    · cases waits
    · rename_i other
      refine .inl ⟨waits, fun x => ?_⟩
      rintro ⟨⟩
      exact other rfl

/-- A queue is taken for a module whose compilation has just ended, under one of its names. -/
theorem collects (deed : Deed w frame w' frames) {locator : Locator} {r : RecordId}
    (member : .applyPatches locator r ∈ frames) :
    frame = .finishCompile r ∧ locator ∈ (w.loader.record r).patchKeys := by
  have none (ordinary : ∀ f ∈ frames, f.isOrdinary = true) :
      frame = .finishCompile r ∧ locator ∈ (w.loader.record r).patchKeys := by
    cases ordinary _ member
  cases deed with
  | aside outside stays files ordinary => exact none ordinary
  | queued site rest id body patch waits loader fetcher ordinary => exact none ordinary
  | patched site rest id body patch x held compiled loader fetcher ordinary =>
    cases ordinary _ ((List.mem_cons.mp member).resolve_left Frame.noConfusion)
  | removed site rest key loader fetcher ordinary => exact none ordinary
  | registered site action rest registration registers loader fetcher ordinary => exact none ordinary
  | filed site rest resource draft loader ordinary => exact none ordinary
  | handed site rest index token held loader files ordinary =>
    cases ordinary _ ((List.mem_cons.mp member).resolve_left Frame.noConfusion)
  | answered token takes loader files ordinary =>
    cases ordinary _ ((List.mem_cons.mp member).resolve_left Frame.noConfusion)
  | entered x rest b =>
    rcases List.mem_append.mp member with first | last
    · obtain same | ⟨token, same⟩ := w.enter_frames x b _ first <;> cases same
    · cases List.mem_singleton.mp last
  | finished token => simp [World.finishFetch] at member
  | ended x =>
    simp only [World.finishCompile, List.mem_append, List.mem_map, List.mem_singleton, reduceCtorEq,
      or_false] at member
    obtain ⟨key, named, same⟩ := member
    cases same
    exact ⟨rfl, named⟩
  | applied key x => simp [World.applyPatches] at member

/-- A patch is run when its queue has been taken, or at once because its module is compiled. -/
theorem runs (deed : Deed w frame w' frames) {r : RecordId} {patch : Patch}
    (member : .runPatch r patch ∈ frames) :
    (∃ key, frame = .applyPatches key r ∧ patch ∈ w.loader.patchesFor key) ∨
      (w'.loader = w.loader ∧ w.loader.entry? patch.target = some r ∧ w.loader.status r = .compiled) := by
  have none {frames : List Frame} (ordinary : ∀ f ∈ frames, f.isOrdinary = true) :
      Frame.runPatch r patch ∉ frames := fun member => by cases ordinary _ member
  cases deed with
  | aside outside stays files ordinary => exact absurd member (none ordinary)
  | queued site rest id body patch waits loader fetcher ordinary => exact absurd member (none ordinary)
  | patched site rest id body made x held compiled loader fetcher ordinary =>
    obtain same | later := List.mem_cons.mp member
    · cases same
      exact .inr ⟨loader, held, compiled⟩
    · exact absurd later (none ordinary)
  | removed site rest key loader fetcher ordinary => exact absurd member (none ordinary)
  | registered site action rest registration registers loader fetcher ordinary =>
    exact absurd member (none ordinary)
  | filed site rest resource draft loader ordinary => exact absurd member (none ordinary)
  | handed site rest index token held loader files ordinary =>
    exact absurd ((List.mem_cons.mp member).resolve_left Frame.noConfusion) (none ordinary)
  | answered token takes loader files ordinary =>
    exact absurd ((List.mem_cons.mp member).resolve_left Frame.noConfusion) (none ordinary)
  | entered x rest b =>
    rcases List.mem_append.mp member with first | last
    · obtain same | ⟨token, same⟩ := w.enter_frames x b _ first <;> cases same
    · cases List.mem_singleton.mp last
  | finished token => simp [World.finishFetch] at member
  | ended x => simp [World.finishCompile] at member
  | applied key x =>
    simp only [World.applyPatches, List.mem_flatMap, List.mem_cons, List.not_mem_nil, or_false,
      reduceCtorEq] at member
    obtain ⟨taken, queued, same⟩ := member
    cases same
    exact .inl ⟨key, rfl, queued⟩

end Deed

section

variable {host : Action → Prop} {setup : Setup} {past : List Machine} {m : Machine}

/-- What the past has not brought, none of its steps has. -/
theorem not_removed (kept : ∀ locator, .removed locator ∉ occurrences past) {w : World} {frame : Frame}
    {rest : List Frame} (passed : ⟨w, frame :: rest⟩ ∈ past) (locator : Locator) :
    frame.occurrence w ≠ .removed locator := by
  intro removes
  refine kept locator (List.mem_map.mpr ⟨_, passed, ?_⟩)
  exact removes

/-- Has an entry been taken out of the registry? -/
def Occurrence.isRemoval : Occurrence → Bool
  | .removed _ => true
  | _ => false

theorem none_removed (none : (occurrences past).any Occurrence.isRemoval = false) (locator : Locator) :
    .removed locator ∉ occurrences past := by
  intro removed
  have found := List.any_eq_false.mp none _ removed
  exact found rfl

/-- Patches wait under the locators that they were meant for. -/
theorem patchesFor_target (run : Run host (.fresh setup) past m) {locator : Locator} {patch : Patch}
    (waits : patch ∈ m.world.loader.patchesFor locator) : patch.target = locator := by
  revert waits
  refine run.invariant
    (P := fun _ m => patch ∈ m.world.loader.patchesFor locator → patch.target = locator) ?_ ?_ ?_
  · rw [Machine.fresh, World.start_bare]
    intro waits
    cases waits
  · intro past w frame rest run before waits
    obtain ⟨earlier, -⟩ | ⟨target, -⟩ := run.deed.patchesFor run.sound waits
    · exact before earlier
    · exact target
  · intro past w action run allowed before
    exact before

/-- A patch that waits under the locator of a compiled module has been missed, unless the locator's queue is
about to be taken. -/
theorem collected_or_missed (run : Run host (.fresh setup) past m) {locator : Locator} {patch : Patch}
    {r : RecordId} (waits : patch ∈ m.world.loader.patchesFor locator)
    (held : m.world.loader.entry? locator = some r) (compiled : m.world.loader.status r = .compiled) :
    .applyPatches locator r ∈ m.stack ∨
      ∃ moment ∈ past, patch ∈ moment.world.loader.patchesFor locator ∧ moment.Misses locator := by
  revert r
  revert waits
  refine run.invariant (P := fun past m => patch ∈ m.world.loader.patchesFor locator → ∀ {r : RecordId},
    m.world.loader.entry? locator = some r → m.world.loader.status r = .compiled →
    .applyPatches locator r ∈ m.stack ∨
      ∃ moment ∈ past, patch ∈ moment.world.loader.patchesFor locator ∧ moment.Misses locator) ?_ ?_ ?_
  · rw [Machine.fresh, World.start_bare]
    intro waits
    cases waits
  · intro past w frame rest run before waits r held compiled
    obtain ⟨earlier, other⟩ | ⟨-, loader, absent⟩ := run.deed.patchesFor run.sound waits
    · by_cases missed : Machine.Misses ⟨w, frame :: rest⟩ locator
      · exact .inr ⟨_, List.mem_cons_self .., earlier, missed⟩
      · have there : w.loader.entry? locator = some r ∧
            (w.loader.status r = .compiled ∨ locator ∈ (w.loader.record r).patchKeys) :=
          Decidable.byContradiction fun elsewhere =>
            missed ⟨_, r, Machine.step?_cons w frame rest, held, compiled, elsewhere⟩
        by_cases already : w.loader.status r = .compiled
        · obtain queue | ⟨moment, passed, missed⟩ := before earlier there.1 already
          · refine .inl (List.mem_append_right _ ((List.mem_cons.mp queue).resolve_left ?_))
            exact fun taken => other r taken.symm
          · exact .inr ⟨moment, List.mem_cons_of_mem _ passed, missed⟩
        · -- The module has been compiled by this step, and its queues are taken next.
          have bears := (founded_always run).stack frame (List.mem_cons_self ..)
          obtain rfl := (run.turn.compiled bears compiled).resolve_left already
          have named := there.2.resolve_left already
          refine .inl (List.mem_append_left _ (List.mem_append_left _ ?_))
          exact List.mem_map.mpr ⟨locator, named, rfl⟩
    · -- No compiled module is there when a patch is queued.
      rw [loader] at held compiled
      exact absurd compiled (absent r held)
  · intro past w action run allowed before waits r held compiled
    obtain queue | ⟨moment, passed, missed⟩ := before waits held compiled
    · cases queue
    · exact .inr ⟨moment, List.mem_cons_of_mem _ passed, missed⟩

/-- A module that is ready keeps its locator in a step that removes nothing. -/
theorem Run.keeps {w : World} {frame : Frame} {rest : List Frame}
    (run : Run host (.fresh setup) past ⟨w, frame :: rest⟩)
    (kept : ∀ locator, frame.occurrence w ≠ .removed locator) {locator : Locator} {r : RecordId}
    {s : Status} (ready : .ready ≤ s) (held : w.loader.entry? locator = some r)
    (reached : s ≤ w.loader.status r) :
    (frame.exec w).1.loader.entry? locator = some r ∧ s ≤ (frame.exec w).1.loader.status r :=
  ⟨(run.deed.renamed run.sound kept).keeps held (Status.le_trans ready reached),
    Status.le_trans reached (run.turn.rises r)⟩

/-- Once a locator stands for a compiled module, it goes on to do so if it is not removed. -/
theorem compiled_since (run : Run host (.fresh setup) past m)
    (kept : ∀ locator, .removed locator ∉ occurrences past) {locator : Locator} {moment : Machine}
    (passed : moment ∈ past) (missed : moment.Misses locator) :
    m.Misses locator ∨ ∃ r, m.world.loader.entry? locator = some r ∧
      m.world.loader.status r = .compiled := by
  refine run.lasting (Q := fun m => m.Misses locator ∨ ∃ r, m.world.loader.entry? locator = some r ∧
    m.world.loader.status r = .compiled) ?_ ?_ passed (.inl missed)
  · intro earlier w frame rest member run before
    obtain ⟨next, r, stepped, held, compiled, -⟩ | ⟨r, held, compiled⟩ := before
    · cases Option.some.inj stepped
      exact .inr ⟨r, held, compiled⟩
    · obtain ⟨held, reached⟩ := run.keeps (s := .compiled) (not_removed kept member) (by decide) held
        (by rw [compiled]; exact Status.le_refl _)
      exact .inr ⟨r, held, Status.eq_compiled reached⟩
  · intro w action before
    obtain ⟨next, r, stepped, -⟩ | there := before
    · cases stepped
    · exact .inr there

/-- Where nothing is removed, a patch that is left in its queue when nothing is left to do is a patch for
the locator of a compiled module if and only if it was missed: at some step, while it was waiting, its
locator came to stand for a compiled module without being one of the names under which the module was
patched when its compilation ended. -/
theorem patch_left_behind_iff (run : Run host (.fresh setup) past m) (idle : m.stack = [])
    (kept : ∀ locator, .removed locator ∉ occurrences past) {locator : Locator} {patch : Patch}
    (waits : patch ∈ m.world.loader.patchesFor locator) :
    patch.target = locator ∧
    ((∃ r, m.world.loader.entry? locator = some r ∧ m.world.loader.status r = .compiled) ↔
      ∃ moment ∈ past, patch ∈ moment.world.loader.patchesFor locator ∧ moment.Misses locator) := by
  refine ⟨patchesFor_target run waits, ?_, ?_⟩
  · rintro ⟨r, held, compiled⟩
    refine (collected_or_missed run waits held compiled).resolve_left ?_
    rw [idle]
    exact List.not_mem_nil
  · rintro ⟨moment, passed, -, missed⟩
    refine (compiled_since run kept passed missed).resolve_left ?_
    rintro ⟨next, r, stepped, -⟩
    rw [Machine.step?, idle] at stepped
    cases stepped

end

/-- A session over one file that is there under three names, of which a module that shares it remembers only
two. -/
def Setup.tripled : Setup :=
  let config : Config := { rules := [⟨"page:/v1/", "page:/lib/"⟩, ⟨"page:/v2/", "page:/lib/"⟩] }
  { config
    resolver := config.resolver
    policy := .immediate
    sink := .silent
    files := [(⟨"page:/lib/x"⟩,
      .mk none (some []) (.function [.value (.setMember "from" (.text "factory"))] none))] }

/-- A patch for the third name waits, and the module is compiled without it. -/
theorem Setup.tripled_run : ∃ past m, Run (fun _ => True) (.fresh .tripled) past m ∧ m.stack = [] ∧
    (∀ locator, .removed locator ∉ occurrences past) ∧
    m.world.loader.resolve "v2/x" none = some ⟨"page:/v2/x"⟩ ∧
    (∃ patch, patch ∈ m.world.loader.patchesFor ⟨"page:/v2/x"⟩) ∧
    m.world.loader.entry? ⟨"page:/v2/x"⟩ = some ⟨0⟩ ∧ m.world.loader.status ⟨0⟩ = .compiled := by
  have fresh : Run (fun _ => True) (.fresh .tripled) [] (.fresh .tripled) := .start
  have run := fresh.played 60 [.modify "v2/x" [.value (.setMember "patched" (.bool true))],
    .load [⟨"page:/lib/x"⟩, ⟨"page:/v1/x"⟩, ⟨"page:/v2/x"⟩] "all" [], .useModules ["v2/x"] "second" []]
    (fun _ _ => trivial) (by decide +kernel)
  refine ⟨_, _, run, rfl, none_removed (by decide +kernel), by decide +kernel, ?_, by decide +kernel,
    by decide +kernel⟩
  exact List.exists_mem_of_length_pos (by decide +kernel)

/-- A module that is used under a name is compiled, and the patch for this name waits for ever. -/
theorem left_behind_compiled :
    ¬ ∀ (setup : Setup) (past : List Machine) (m : Machine) (locator : Locator) (patch : Patch)
        (r : RecordId), Run (fun _ => True) (.fresh setup) past m → m.stack = [] →
      (∀ locator, .removed locator ∉ occurrences past) → patch ∈ m.world.loader.patchesFor locator →
      m.world.loader.entry? locator = some r → m.world.loader.status r ≠ .compiled := by
  intro uncompiled
  obtain ⟨past, m, run, idle, kept, -, ⟨patch, waits⟩, held, compiled⟩ := Setup.tripled_run
  exact uncompiled _ past m _ patch _ run idle kept waits held compiled

theorem patch_left_behind_iff_tripled :
    ∃ past m patch, Run (fun _ => True) (.fresh .tripled) past m ∧ m.stack = [] ∧
      (∀ locator, .removed locator ∉ occurrences past) ∧
      patch ∈ m.world.loader.patchesFor ⟨"page:/v2/x"⟩ ∧ patch.target = ⟨"page:/v2/x"⟩ ∧
      ∃ moment ∈ past, patch ∈ moment.world.loader.patchesFor ⟨"page:/v2/x"⟩ ∧
        moment.Misses ⟨"page:/v2/x"⟩ := by
  obtain ⟨past, m, run, idle, kept, -, ⟨patch, waits⟩, held, compiled⟩ := Setup.tripled_run
  obtain ⟨target, missed⟩ := patch_left_behind_iff run idle kept waits
  exact ⟨past, m, patch, run, idle, kept, waits, target, missed.mp ⟨_, held, compiled⟩⟩

section

variable {host : Action → Prop} {setup : Setup} {past : List Machine} {m : Machine}

/-! Under which names a patch meets a module. -/

/-- Where nothing is removed, every record is registered under its names, or it has lost them for good. -/
theorem faithful_always (run : Run host (.fresh setup) past m)
    (kept : ∀ locator, .removed locator ∉ occurrences past) :
    m.world.loader.Solitary ∧ m.world.loader.Faithful := by
  revert kept
  refine run.invariant (P := fun past m => (∀ locator, .removed locator ∉ occurrences past) →
    m.world.loader.Solitary ∧ m.world.loader.Faithful) ?_ ?_ ?_
  · rw [Machine.fresh, World.start_bare]
    intro _
    refine ⟨fun locator r held => ?_, fun r inside => ?_⟩
    · cases held
    · exact absurd inside (Nat.not_lt_zero _)
  · intro past w frame rest run before kept
    obtain ⟨solitary, faithful⟩ := before fun locator removed =>
      kept locator (List.mem_cons_of_mem _ removed)
    have renamed := run.deed.renamed run.sound (not_removed kept (List.mem_cons_self ..))
    exact ⟨renamed.solitary run.sound solitary, renamed.faithful run.sound solitary faithful⟩
  · intro past w action run allowed before kept
    exact before fun locator removed => kept locator (List.mem_cons_of_mem _ removed)

/-- A queue is taken for a module whose compilation has ended. -/
theorem queue_collected (run : Run host (.fresh setup) past m) {locator : Locator} {r : RecordId}
    (taken : .applyPatches locator r ∈ m.stack) : ∃ moment ∈ past, moment.Collects locator r := by
  revert taken
  refine run.invariant (P := fun past m => .applyPatches locator r ∈ m.stack →
    ∃ moment ∈ past, moment.Collects locator r) ?_ ?_ ?_
  · intro taken
    cases taken
  · intro past w frame rest run before taken
    rcases List.mem_append.mp taken with new | old
    · obtain ⟨rfl, named⟩ := run.deed.collects new
      exact ⟨_, List.mem_cons_self .., rfl, named⟩
    · obtain ⟨moment, passed, collects⟩ := before (List.mem_cons_of_mem _ old)
      exact ⟨moment, List.mem_cons_of_mem _ passed, collects⟩
  · intro past w action run allowed before taken
    cases (List.mem_singleton.mp taken)

/-- A patch is run because its queue was taken when a compilation ended, or because its locator stands for a
compiled module. -/
theorem patch_collected (run : Run host (.fresh setup) past m)
    (kept : ∀ locator, .removed locator ∉ occurrences past) {r : RecordId} {patch : Patch}
    (runs : .runPatch r patch ∈ m.stack) :
    (∃ moment ∈ past, moment.Collects patch.target r) ∨
      m.world.loader.entry? patch.target = some r ∧ .compiled ≤ m.world.loader.status r := by
  revert kept runs
  refine run.invariant (P := fun past m => (∀ locator, .removed locator ∉ occurrences past) →
    .runPatch r patch ∈ m.stack → (∃ moment ∈ past, moment.Collects patch.target r) ∨
      m.world.loader.entry? patch.target = some r ∧ .compiled ≤ m.world.loader.status r) ?_ ?_ ?_
  · intro _ runs
    cases runs
  · intro past w frame rest run before kept runs
    rcases List.mem_append.mp runs with new | old
    · obtain ⟨key, rfl, queued⟩ | ⟨loader, held, compiled⟩ := run.deed.runs new
      · obtain rfl := patchesFor_target run queued
        obtain ⟨moment, passed, collects⟩ := queue_collected run (List.mem_cons_self ..)
        exact .inl ⟨moment, List.mem_cons_of_mem _ passed, collects⟩
      · rw [loader]
        exact .inr ⟨held, compiled ▸ Status.le_refl _⟩
    · obtain ⟨moment, passed, collects⟩ | ⟨held, compiled⟩ := before
        (fun locator removed => kept locator (List.mem_cons_of_mem _ removed))
        (List.mem_cons_of_mem _ old)
      · exact .inl ⟨moment, List.mem_cons_of_mem _ passed, collects⟩
      · exact .inr (run.keeps (not_removed kept (List.mem_cons_self ..)) (by decide) held compiled)
  · intro past w action run allowed before kept runs
    cases (List.mem_singleton.mp runs)

/-- Where nothing is removed, a patch that is about to be run on a module meets the one that its locator
stands for if and only if the module has at no earlier moment gone by this name while the locator stood for
something else. -/
theorem patch_meets_named_iff (run : Run host (.fresh setup) past m)
    (kept : ∀ locator, .removed locator ∉ occurrences past) {r : RecordId} {patch : Patch}
    (runs : m.stack.head? = some (.runPatch r patch)) :
    m.world.loader.entry? patch.target = some r ↔
      ∀ moment ∈ past, ¬ moment.world.loader.Misnames r patch.target := by
  constructor
  · rintro held moment passed ⟨inside, named, elsewhere⟩
    obtain ⟨later, earlier, same, before⟩ := run.at_moment passed
    have since : ∀ locator, .removed locator ∉ occurrences earlier := by
      intro locator removed
      refine kept locator ?_
      rw [same, occurrences, List.map_append]
      exact List.mem_append_right _ (List.mem_cons_of_mem _ removed)
    have lost := ((faithful_always before since).2 r inside _ named).resolve_left elsewhere
    obtain ⟨-, gone⟩ := run.lasting (Q := fun m => r.index < m.world.loader.records.size ∧
      m.world.loader.Lost patch.target r)
      (fun earlier w frame rest member run before =>
        (run.deed.renamed run.sound (not_removed kept member)).lost before.1 before.2)
      (fun w action before => before) passed ⟨inside, lost⟩
    exact gone.entry held
  · intro named
    obtain ⟨moment, passed, ends, key⟩ | ⟨held, -⟩ :=
      patch_collected run kept (List.mem_of_mem_head? runs)
    · obtain ⟨later, earlier, -, before⟩ := run.at_moment passed
      have compiling : .compiling ≤ moment.world.loader.status r :=
        (founded_always before).stack _ (List.mem_of_mem_head? ends) (r, .compiling)
          (List.mem_singleton_self _)
      have inside := Loader.index_lt_of_known
        (Status.ne_unknown_of_le (a := .compiling) (by decide) compiling)
      have held : moment.world.loader.entry? patch.target = some r :=
        Decidable.byContradiction fun elsewhere => named moment passed ⟨inside, key, elsewhere⟩
      exact (run.lasting (Q := fun m => m.world.loader.entry? patch.target = some r ∧
        .compiling ≤ m.world.loader.status r)
        (fun earlier w frame rest member run before =>
          run.keeps (not_removed kept member) (by decide) before.1 before.2)
        (fun w action before => before) passed ⟨held, compiling⟩).1
    · exact held

end

/-- A session over one file that registers a module by name and another one without a name, under the
locator that it is retrieved for. -/
def Setup.bundled : Setup where
  config := {}
  resolver := Config.resolver {}
  policy := .derived
  sink := .silent
  files := [(⟨"page:/pkg"⟩, .mk (some "lib/helper") (some []) (.function [] none)),
    (⟨"page:/pkg"⟩, .mk none (some []) (.function [] none))]

/-- The first module takes the locator over and goes on to be patched by that name when the second one has
taken it back. -/
theorem patched_by_lost_name :
    ¬ ∀ (setup : Setup) (past : List Machine) (m : Machine) (r : RecordId) (patch : Patch),
      Run (fun _ => True) (.fresh setup) past m → (∀ locator, .removed locator ∉ occurrences past) →
      m.stack.head? = some (.runPatch r patch) → m.world.loader.entry? patch.target = some r := by
  intro meets
  have fresh : Run (fun _ => True) (.fresh .bundled) [] (.fresh .bundled) := .start
  have run := ((fresh.played 60 [.modify "pkg" [.value (.setMember "patched" (.bool true))],
    .load [⟨"page:/pkg"⟩] "loaded" []] (fun _ _ => trivial) (by decide +kernel)).act
    (.useModules ["lib/helper"] "helper" []) trivial).continued 18
  have held := meets _ _ _ ⟨1⟩
    ⟨0, ⟨"page:/pkg"⟩, [.value (.setMember "patched" (.bool true))]⟩ run (none_removed (by decide +kernel))
    rfl
  revert held
  decide +kernel

/-- A session over one file that registers a module by name and nothing else. -/
def Setup.packed : Setup where
  config := {}
  resolver := Config.resolver {}
  policy := .immediate
  sink := .silent
  files := [(⟨"page:/pkg"⟩, .mk (some "lib/helper") (some []) (.function [] none))]

theorem patch_meets_named_iff_packed :
    ∃ past m r patch, Run (fun _ => True) (.fresh .packed) past m ∧
      (∀ locator, .removed locator ∉ occurrences past) ∧ m.stack.head? = some (.runPatch r patch) ∧
      patch.target = ⟨"page:/pkg"⟩ ∧ (m.world.loader.record r).locator = ⟨"page:/lib/helper"⟩ ∧
      ∀ moment ∈ past, ¬ moment.world.loader.Misnames r patch.target := by
  have fresh : Run (fun _ => True) (.fresh .packed) [] (.fresh .packed) := .start
  have run := ((fresh.played 60 [.modify "pkg" [.value (.setMember "patched" (.bool true))],
    .load [⟨"page:/pkg"⟩] "loaded" []] (fun _ _ => trivial) (by decide +kernel)).act
    (.useModules ["lib/helper"] "helper" []) trivial).continued 16
  refine ⟨_, _, ⟨1⟩, ⟨0, ⟨"page:/pkg"⟩, [.value (.setMember "patched" (.bool true))]⟩, run,
    none_removed (by decide +kernel), rfl, rfl, by decide +kernel, ?_⟩
  exact (patch_meets_named_iff run (none_removed (by decide +kernel)) rfl).mp (by decide +kernel)

end ModuleLoader
