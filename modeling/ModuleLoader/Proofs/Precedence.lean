import ModuleLoader.Proofs.Derivation.Registering

/-! Who keeps a locator that is registered again. The module that was registered first keeps it, with one
exception: if the host says that it registers for the locator, and the module there has taken over another
locator as well and has only been saved, then a new module takes its place. -/
namespace ModuleLoader

namespace Loader

variable {l l' : Loader} {locator : Locator} {r : RecordId}

/-- What a registration must leave alone: the record that a locator stands for, and what was registered with
it. -/
structure Retains (l : Loader) (locator : Locator) (r : RecordId) (l' : Loader) : Prop where
  entry : l'.entry? locator = some r
  status : l'.status r = l.status r
  dependencies : (l'.record r).dependencies = (l.record r).dependencies
  factory : (l'.record r).factory = (l.record r).factory
  declaredId : (l'.record r).declaredId = (l.record r).declaredId

theorem Retains.of_same (held : l.entry? locator = some r) (registry : l'.registry = l.registry)
    (records : l'.records = l.records) : Retains l locator r l' := by
  have same : l'.record r = l.record r := congrArg (·.get r.index) records
  refine ⟨(congrArg (OrderedMap.get? · locator) registry).trans held, congrArg Record.status same, ?_, ?_, ?_⟩
  all_goals rw [same]

theorem Retains.of_noted {e : Event} (retains : Retains (l.note e) locator r l') : Retains l locator r l' :=
  ⟨retains.entry, retains.status, retains.dependencies, retains.factory, retains.declaredId⟩

theorem new_ne_saved (saved : .saved ≤ l.status r) : (⟨l.records.size⟩ : RecordId) ≠ r :=
  (Renames.not_new (index_lt_of_known (Status.ne_unknown_of_le (a := .saved) (by decide) saved))).symm

/-- Something has been saved there before, so that what is registered now is ignored. -/
theorem save_ignored (held : l.entry? locator = some r) (saved : .saved ≤ l.status r)
    (definition : Definition) : l.save locator definition = (l.note (.ignored locator), r) := by
  simp only [save, ensure, held, if_pos saved]

/-- A module that takes over a further locator remembers it, and is otherwise left alone. -/
theorem takePlaceholder_retains (held : l.entry? locator = some r) (further : Locator) :
    Retains l locator r (l.takePlaceholder further r) := by
  unfold takePlaceholder
  split
  · split
    · have record : ((l.point further r).setSecondLocator r further).record r = _ :=
        record_updateRecord (l.point further r) r r _
      refine ⟨?_, ?_, ?_, ?_, ?_⟩
      · change Loader.entry? (l.point further r) locator = some r
        rw [entry_point]
        split
        · rfl
        · exact held
      · rw [status, record]
        split <;> rfl
      all_goals
        rw [record]
        split <;> rfl
    · exact .of_same held rfl rfl
  · exact .of_same held rfl rfl

theorem rememberFirst_retains (held : l.entry? locator = some r) (x : RecordId) :
    Retains l locator r (l.rememberFirst x) := by
  unfold rememberFirst
  split <;> exact .of_same held rfl rfl

variable {registration : Registration}

/-- A module that is registered by name leaves what has been saved under the name. -/
theorem define_retains (held : l.entry? locator = some r) (saved : .saved ≤ l.status r)
    (named : l.named? registration = some locator) : Retains l locator r (l.define registration) := by
  have aimed : (registration.definition.id.bind fun id => l.resolve id none).or none = some locator := by
    rw [Option.or_none]
    exact named
  simp only [define, register, aimed, reduceCtorEq, if_false, save_ignored held saved]
  exact (rememberFirst_retains (l := l.note (.ignored locator)) held r).of_noted

/-- A registration by name for which the host has no locator is like any other. -/
theorem defineDerived_none (named : l.named? registration = some locator) :
    l.defineDerived registration none = l.define registration := by
  have identified : registration.id.isNone = false := by
    cases id : registration.id with
    | none => simp [named?, id] at named
    | some _ => rfl
  simp only [defineDerived, identified, Bool.and_false, Bool.false_eq_true, if_false, define]

/-- On behalf of one locator a module is registered under another one, and leaves what has been saved there. -/
theorem derive_other_retains (held : l.entry? locator = some r) (saved : .saved ≤ l.status r) {derived : Locator}
    (aim : l.aim derived registration = locator) (apart : derived ≠ locator) :
    Retains l locator r (l.defineDerived registration (some derived)) := by
  have other : l.aim derived registration ≠ derived := fun same => apart (same.symm.trans aim)
  rw [derive_other other, aim, save_ignored held saved]
  exact (takePlaceholder_retains (l := l.note (.ignored locator)) held derived).of_noted

/-- A registration for a locator under which something has been saved leaves it there, unless the host
registers for just this locator, the module there has another one as well and is only saved. In this case a
new module takes its place, with what is registered now. -/
theorem first_registration_kept_iff (l : Loader) (registration : Registration) (derived : Option Locator)
    (locator : Locator) (r : RecordId) (held : l.entry? locator = some r) (saved : .saved ≤ l.status r) :
    (l.named? registration = some locator → Retains l locator r (l.define registration)) ∧
    ((l.named? registration).or derived = some locator →
      let l' := l.defineDerived registration derived
      let yields := derived = some locator ∧ (l.record r).secondLocator.isSome ∧ l.status r = .saved
      (Retains l locator r l' ↔ ¬ yields) ∧
      (yields → ∃ fresh, fresh ≠ r ∧ l'.entry? locator = some fresh ∧
        l'.look fresh = (l.offer locator registration.definition, .saved))) := by
  refine ⟨define_retains held saved, fun aimed => ?_⟩
  cases derived with
  | none =>
    rw [Option.or_none] at aimed
    have underived : (none : Option Locator) ≠ some locator := (Option.some_ne_none locator).symm
    rw [defineDerived_none aimed]
    refine ⟨iff_of_true (define_retains held saved aimed) fun yields => ?_, fun yields => ?_⟩
    · exact underived yields.1
    · exact absurd yields.1 underived
  | some derived =>
    rw [Option.or_some] at aimed
    have aim : l.aim derived registration = locator := Option.some.inj aimed
    by_cases apart : derived = locator
    · subst apart
      by_cases taken : (l.record r).secondLocator.isSome = true ∧ l.status r = .saved
      · obtain ⟨there, look⟩ := derive_back held taken.1 taken.2 aim
        have other := new_ne_saved saved
        refine ⟨iff_of_false (fun kept => ?_) fun none => none ⟨rfl, taken⟩, fun _ => ⟨_, other, there, look⟩⟩
        exact other (Option.some.inj (there.symm.trans kept.entry))
      · obtain ⟨registry, records⟩ := derive_late held saved taken aim
        refine ⟨iff_of_true (.of_same held registry records) fun yields => ?_, fun yields => ?_⟩
        · exact taken yields.2
        · exact absurd yields.2 taken
    · refine ⟨iff_of_true (derive_other_retains held saved aim apart) fun yields => ?_, fun yields => ?_⟩
      · exact apart (Option.some.inj yields.1)
      · exact absurd (Option.some.inj yields.1) apart

end Loader

/-- A session whose retrievals wait for the host. -/
def Setup.attended : Setup where
  config := {}
  resolver := .flat
  policy := .manual
  sink := .silent
  files := []

/-- A package that is being retrieved registers a module by name, which takes over its locator. -/
theorem Setup.attended_run : ∃ past m, Run (fun _ => True) (.fresh .attended) past m ∧
    m.world.loader.entry? ⟨"mem:helper"⟩ = some ⟨1⟩ ∧
    (m.world.loader.record ⟨1⟩).locator = ⟨"mem:helper"⟩ ∧
    (m.world.loader.record ⟨1⟩).secondLocator = some ⟨"mem:pkg"⟩ ∧
    m.world.loader.status ⟨1⟩ = .saved := by
  have fresh : Run (fun _ => True) (.fresh .attended) [] (.fresh .attended) := .start
  have run := fresh.played 40 [.load [⟨"mem:pkg"⟩] "loaded" [],
    .token 0 (.defineDerived (.mk (some "helper") (some []) (.value (.int 1))))] (fun _ _ => trivial)
    (by decide +kernel)
  exact ⟨_, _, run, by decide +kernel, by decide +kernel, by decide +kernel, by decide +kernel⟩

open Loader

/-- The module that the package has registered loses its own locator to a later one. -/
theorem later_registration_replaces :
    ¬ ∀ (setup : Setup) (past : List Machine) (m : Machine) (registration : Registration)
        (derived : Option Locator) (locator : Locator) (r : RecordId),
      Run (fun _ => True) (.fresh setup) past m →
      (m.world.loader.named? registration).or derived = some locator →
      m.world.loader.entry? locator = some r → (m.world.loader.record r).locator = locator →
      .saved ≤ m.world.loader.status r →
      Retains m.world.loader locator r (m.world.loader.defineDerived registration derived) := by
  intro kept
  obtain ⟨past, m, run, held, own, second, saved⟩ := Setup.attended_run
  have early : Status.saved ≤ m.world.loader.status ⟨1⟩ := saved ▸ Status.le_refl _
  let registration : Registration := ⟨none, some [], .value (.int 2)⟩
  have later := kept _ past m registration (some ⟨"mem:helper"⟩) ⟨"mem:helper"⟩ ⟨1⟩ run rfl held own early
  have aim : m.world.loader.aim ⟨"mem:helper"⟩ registration = ⟨"mem:helper"⟩ := rfl
  obtain ⟨there, -⟩ := derive_back held (by rw [second]; rfl) saved aim
  exact new_ne_saved early (Option.some.inj (there.symm.trans later.entry))

theorem first_registration_kept_iff_attended :
    ∃ past m l, Run (fun _ => True) (.fresh .attended) past m ∧
      l = m.world.loader.defineDerived ⟨none, some [], .value (.int 2)⟩ (some ⟨"mem:helper"⟩) ∧
      m.world.loader.entry? ⟨"mem:helper"⟩ = some ⟨1⟩ ∧ .saved ≤ m.world.loader.status ⟨1⟩ ∧
      ∃ fresh, fresh ≠ ⟨1⟩ ∧ l.entry? ⟨"mem:helper"⟩ = some fresh ∧
        l.look fresh = ((⟨"mem:helper"⟩, [], some (.value (.int 2))), .saved) := by
  obtain ⟨past, m, run, held, own, second, saved⟩ := Setup.attended_run
  have early : Status.saved ≤ m.world.loader.status ⟨1⟩ := saved ▸ Status.le_refl _
  obtain ⟨-, derived⟩ := first_registration_kept_iff m.world.loader ⟨none, some [], .value (.int 2)⟩
    (some ⟨"mem:helper"⟩) ⟨"mem:helper"⟩ ⟨1⟩ held early
  obtain ⟨-, replaced⟩ := derived rfl
  exact ⟨past, m, _, run, rfl, held, early, replaced ⟨rfl, by rw [second]; rfl, saved⟩⟩

end ModuleLoader
