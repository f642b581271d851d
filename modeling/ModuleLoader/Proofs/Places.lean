import ModuleLoader.Proofs.Patches.Order

/-! The order of the registry. A locator that comes in takes the last place, and one that stands for another
record keeps the place that it has; only a removal takes a locator out, and the others close up. So locators
stand in the order in which they came in, counting from the last removal of each. -/
namespace ModuleLoader

open Loader (Sound)

namespace Loader

variable {l l' : Loader}

/-- Locators keep their places, and new ones come last. -/
def Appends (l l' : Loader) : Prop := l.registry.keys <+: l'.registry.keys

theorem Appends.refl (l : Loader) : Appends l l := List.prefix_refl _

theorem Appends.trans {a b c : Loader} (ab : Appends a b) (bc : Appends b c) : Appends a c :=
  List.IsPrefix.trans ab bc

theorem Appends.of_same (registry : l'.registry = l.registry) : Appends l l' := by
  simp only [Appends, registry, List.prefix_refl]

theorem point_appends (l : Loader) (locator : Locator) (r : RecordId) : Appends l (l.point locator r) := by
  rw [Appends, point, OrderedMap.keys_insert]
  split
  · exact List.prefix_refl _
  · exact List.prefix_append _ _

/-- Registering and retrieving only point locators at records. -/
theorem Edits.appends {permit : Permit} (edits : Edits permit l l') : Appends l l' := by
  refine edits.lift .refl .trans fun edit => ?_
  cases edit with
  | reported d => exact .of_same (emit_same _ d).1
  | pointed locator r => exact point_appends _ locator r
  | _ => exact .of_same rfl

/-- A removal takes out just the one locator. -/
theorem keys_remove (l : Loader) (locator : Locator) :
    (l.remove locator).registry.keys = l.registry.keys.filter (· ≠ locator) := by
  have distinct : l.registry.keys.Nodup := l.registry.nodup
  rw [remove, OrderedMap.keys_erase, distinct.erase_eq_filter]
  exact List.filter_congr fun x _ => by rw [bne, decide_not, beq_eq_decide]

end Loader

open Loader (Appends)

/-- Whatever a frame does, it moves no locator and drops none, or else it removes just one. -/
theorem Deed.appends_or_removed {w w' : World} {frame : Frame} {frames : List Frame}
    (deed : Deed w frame w' frames) : Appends w.loader w'.loader ∨
      ∃ locator, frame.occurrence w = .removed locator ∧ w'.loader = w.loader.remove locator := by
  have same (loader : w'.loader = w.loader) : Appends w.loader w'.loader := .of_same (by rw [loader])
  cases deed with
  | aside outside stays => exact .inl (.of_same stays.registry)
  | queued site rest id body patch waits loader => exact .inl (.of_same (by rw [loader]; rfl))
  | patched site rest id body patch r held compiled loader => exact .inl (same loader)
  | removed site rest key loader =>
    obtain removed | unchanged := w.removed_or_same site key rest
    · exact .inr ⟨⟨key⟩, removed, loader⟩
    · exact .inl (.of_same (loader ▸ unchanged))
  | registered site action rest registration registers loader =>
    obtain loader | ⟨derived, loader⟩ := loader
    · exact .inl (loader ▸ (w.loader.register_edits registration none).appends)
    · exact .inl (loader ▸ (w.loader.defineDerived_edits registration derived).appends)
  | filed site rest resource draft loader => exact .inl (same loader)
  | handed site rest index token held loader => exact .inl (same loader)
  | answered token takes loader => exact .inl (loader ▸ (World.evaluate_edits _ token.resource).appends)
  | entered locator rest b => exact .inl (w.enter_edits locator b).appends
  | finished token => exact .inl (w.loader.finishFetch_edits token).appends
  | ended r => exact .inl (.refl _)
  | applied key r => exact .inl (.refl _)

/-- The locator that the next step removes, if it does. -/
def Machine.removes? (m : Machine) : Option Locator :=
  match m.occurrence with
  | .removed locator => some locator
  | _ => none

/-- The locators that have been removed, latest first. -/
def removals (past : List Machine) : List Locator := past.filterMap Machine.removes?

theorem Machine.removes?_iff {m : Machine} {locator : Locator} :
    m.removes? = some locator ↔ m.occurrence = .removed locator := by
  unfold removes?
  split
  · rename_i removes
    rw [removes, Option.some.injEq, Occurrence.removed.injEq]
  · rename_i other
    exact ⟨fun none => (by cases none), fun removes => absurd removes (other locator)⟩

namespace Loader

/-- The locators of compiled modules that a selector selects, in their places. -/
def found (l : Loader) (selector : Selector) : List Locator :=
  l.registry.keys.filter fun locator => selector.selects locator && l.isCompiled locator

/-- The interface of the module that a locator stands for. -/
def interface? (l : Loader) (locator : Locator) : Option Value :=
  (l.entry? locator).bind fun r => (l.record r).exports

/-- There is an interface for each locator that is found, and they come in the order of the locators. -/
theorem find_eq_found {l : Loader} (staged : ∀ r, (l.record r).Staged) (selector : Selector) :
    (l.found selector).map l.interface? = (l.find selector).map some := by
  have held : ∀ e ∈ l.registry.entries, l.entry? e.1 = some e.2 := fun e member =>
    OrderedMap.get?_of_mem member
  simp only [found, find, OrderedMap.keys]
  generalize l.registry.entries = entries at held
  induction entries with
  | nil => rfl
  | cons e entries ih =>
    obtain ⟨locator, r⟩ := e
    obtain ⟨here, below⟩ := List.forall_mem_cons.mp held
    have compiled : l.isCompiled locator = decide (l.status r = .compiled) := by
      rw [isCompiled, here, Option.any_some]
    rw [List.map_cons, List.filter_cons, List.filterMap_cons, compiled]
    by_cases taken : selector.selects locator = true ∧ l.status r = .compiled
    · have late : .compiling ≤ (l.record r).status := by
        rw [show (l.record r).status = .compiled from taken.2]
        decide
      obtain ⟨value, exported⟩ := Option.ne_none_iff_exists'.mp ((staged r).exported late)
      have interface : l.interface? locator = some value := by
        rw [interface?, here, Option.bind_some, exported]
      rw [if_pos (by simpa using taken), if_pos taken, exported, List.map_cons, List.map_cons, ih below,
        interface]
    · rw [if_neg (by simpa using taken), if_neg taken, ih below]

end Loader

section

variable {host : Action → Prop} {setup : Setup} {past : List Machine} {m : Machine}

theorem Frame.exec_of_removed {w : World} {frame : Frame} {locator : Locator}
    (removes : frame.occurrence w = .removed locator) :
    (frame.exec w).1.loader = w.loader.remove locator := by
  obtain ⟨site, key, later, rfl⟩ := of_removed removes
  simp only [occurrence, World.asks?] at removes
  split at removes
  · cases removes
    rfl
  · cases removes

/-- The work of a frame keeps the places of all locators but the one that it removes, if it does. -/
theorem Run.exec_places {w : World} {frame : Frame} {rest : List Frame}
    (run : Run host (.fresh setup) past ⟨w, frame :: rest⟩) :
    w.loader.registry.keys.filter (· ∉ Machine.removes? ⟨w, frame :: rest⟩) <+:
      (frame.exec w).1.loader.registry.keys := by
  cases removes : Machine.removes? ⟨w, frame :: rest⟩ with
  | none =>
    have kept : ∀ locator, frame.occurrence w ≠ .removed locator := by
      intro locator removed
      cases removes.symm.trans (Machine.removes?_iff.mpr removed)
    have appends := run.deed.appends_or_removed.resolve_right fun ⟨locator, removed, _⟩ => kept locator removed
    rw [List.filter_eq_self.mpr fun _ _ => by simp]
    exact appends
  | some locator =>
    rw [Frame.exec_of_removed (Machine.removes?_iff.mp removes), Loader.keys_remove]
    have same : w.loader.registry.keys.filter (· ∉ some locator) = w.loader.registry.keys.filter (· ≠ locator) :=
      List.filter_congr fun x _ => by simp [eq_comm]
    simp only [same, List.prefix_refl]

/-- Places that have been kept up to a moment are kept by its step. -/
theorem places_cons {keys middle last : List Locator} {m : Machine} {past : List Machine}
    (before : keys.filter (· ∉ removals past) <+: middle) (step : middle.filter (· ∉ m.removes?) <+: last) :
    keys.filter (· ∉ removals (m :: past)) <+: last := by
  refine List.IsPrefix.trans ?_ step
  have split : keys.filter (· ∉ removals (m :: past)) =
      (keys.filter (· ∉ removals past)).filter (· ∉ m.removes?) := by
    rw [List.filter_filter, removals, filterMap_cons_toList]
    refine List.filter_congr fun x _ => ?_
    simp [removals, not_or]
  rw [split]
  exact before.filter _

/-- What has not been removed since a moment comes first, in the places that it had then. -/
theorem Run.places {later earlier : List Machine} {moment : Machine} (run : Run host (.fresh setup) past m)
    (split : past = later ++ moment :: earlier) :
    moment.world.loader.registry.keys.filter (· ∉ removals (later ++ [moment])) <+:
      m.world.loader.registry.keys := by
  have none (keys : List Locator) : keys.filter (· ∉ removals []) <+: keys := by
    have all : keys.filter (· ∉ removals []) = keys := List.filter_eq_self.mpr fun _ _ => by simp [removals]
    simp only [all, List.prefix_refl]
  have extended {past : List Machine} {next last : Machine} (run : Run host (.fresh setup) past last)
      (before : ∀ {later}, past = later ++ moment :: earlier →
        moment.world.loader.registry.keys.filter (· ∉ removals (later ++ [moment])) <+:
          last.world.loader.registry.keys)
      (step : last.world.loader.registry.keys.filter (· ∉ last.removes?) <+: next.world.loader.registry.keys)
      {later : List Machine} (split : last :: past = later ++ moment :: earlier) :
      moment.world.loader.registry.keys.filter (· ∉ removals (later ++ [moment])) <+:
        next.world.loader.registry.keys := by
    cases later with
    | nil =>
      cases split
      exact places_cons (none _) step
    | cons last later =>
      cases split
      exact places_cons (before rfl) step
  revert later
  refine run.invariant (P := fun past m => ∀ {later}, past = later ++ moment :: earlier →
    moment.world.loader.registry.keys.filter (· ∉ removals (later ++ [moment])) <+:
      m.world.loader.registry.keys) ?_ ?_ ?_
  · intro later split
    cases later <;> cases split
  · intro past w frame rest run before
    exact extended run before run.exec_places
  · intro past w action run _ before
    exact extended run before (none _)

/-- Of two locators the one that comes first has been registered for at least as long as the other. -/
theorem pair_prefix {keys earlier : List Locator} {stays : Locator → Bool} (distinct : keys.Nodup)
    (places : earlier.filter stays <+: keys) {a b : Locator} (order : [a, b].Sublist keys) (there : b ∈ earlier)
    (stayed : stays b = true) : [a, b].Sublist (earlier.filter stays) := by
  obtain ⟨newer, rfl⟩ := places
  have old : b ∈ earlier.filter stays := List.mem_filter.mpr ⟨there, stayed⟩
  obtain ⟨first, second, split, before, after⟩ := List.sublist_append_iff.mp order
  have nothing : b ∉ second := fun member =>
    List.disjoint_of_nodup_append distinct old (after.subset member)
  match second, split with
  | [], split =>
    rw [List.append_nil] at split
    exact split ▸ before
  | c :: second, split =>
    refine absurd ?_ nothing
    have last : (first ++ c :: second).getLast? = some b := split ▸ rfl
    rw [List.getLast?_append_cons] at last
    exact List.mem_of_getLast? last

/-- Locators that stay registered keep their places, those that come in take the last ones, and a removal takes
out just its locator, so that of two locators the one that comes first has been registered for longer. What is
found is reported in this order. -/
theorem registry_in_order (run : Run host (.fresh setup) past m) :
    let keys := m.world.loader.registry.keys
    (∀ later moment earlier, past = later ++ moment :: earlier →
      let before := moment.world.loader.registry.keys
      let removed := removals (later ++ [moment])
      before.filter (· ∉ removed) <+: keys ∧ (removed = [] → before <+: keys) ∧
      (∀ a b, [a, b].Sublist keys → b ∈ before → b ∉ removed → [a, b].Sublist before ∧ a ∉ removed)) ∧
    (∀ next, m.step? = some next →
      (∀ locator, m.occurrence = .removed locator →
        next.world.loader.registry.keys = keys.filter (· ≠ locator)) ∧
      ((∀ locator, m.occurrence ≠ .removed locator) → keys <+: next.world.loader.registry.keys)) ∧
    (∀ selector, (m.world.loader.found selector).Sublist keys ∧
      (m.world.loader.found selector).map m.world.loader.interface? =
        (m.world.loader.find selector).map some) := by
  refine ⟨fun later moment earlier split => ?_, fun next stepped => ?_, fun selector => ?_⟩
  · have places := run.places split
    refine ⟨places, fun none => ?_, fun a b order there stayed => ?_⟩
    · rw [none, List.filter_eq_self.mpr fun _ _ => by simp] at places
      exact places
    · have both := pair_prefix m.world.loader.registry.nodup places order there (by simpa using stayed)
      have first := List.mem_filter.mp (both.subset (List.mem_cons_self ..))
      exact ⟨both.trans List.filter_sublist, by simpa using first.2⟩
  · obtain ⟨w, stack⟩ := m
    cases stack with
    | nil => cases stepped
    | cons frame rest =>
      cases Option.some.inj stepped
      have places := run.exec_places
      refine ⟨fun locator removes => ?_, fun kept => ?_⟩
      · exact (congrArg (·.registry.keys) (Frame.exec_of_removed removes)).trans (w.loader.keys_remove locator)
      · exact run.deed.appends_or_removed.resolve_right fun ⟨locator, removed, _⟩ => kept locator removed
  · exact ⟨List.filter_sublist, Loader.find_eq_found (staged_always run) selector⟩

end

/-- A module that is removed and asked for again comes last. -/
theorem registry_in_order_stacked :
    ∃ past m, Run (fun _ => True) (.fresh .stacked) past m ∧
      (∃ moment ∈ past, moment.world.loader.registry.keys = [⟨"mem:a"⟩, ⟨"mem:b"⟩]) ∧
      removals past = [⟨"mem:a"⟩] ∧ m.world.loader.registry.keys = [⟨"mem:b"⟩, ⟨"mem:a"⟩] ∧
      m.world.loader.found (.contains "mem:") = [⟨"mem:b"⟩, ⟨"mem:a"⟩] ∧
      (m.world.loader.found (.contains "mem:")).map m.world.loader.interface? =
        (m.world.loader.find (.contains "mem:")).map some := by
  have fresh : Run (fun _ => True) (.fresh .stacked) [] (.fresh .stacked) := .start
  have run := fresh.played 60
    [.useModules ["a"] "page" [], .remove "mem:a", .useModules ["a"] "page" []]
    (fun _ _ => trivial) (by decide +kernel)
  obtain ⟨-, -, found⟩ := registry_in_order run
  exact ⟨_, _, run, by decide +kernel, by decide +kernel, by decide +kernel, by decide +kernel, (found _).2⟩

end ModuleLoader
