import ModuleLoader.Loader

/-! Dependencies that must not be waited for, because waiting would never end. Only a module that is
saved and not yet ready can be waiting, so only such modules make up a circle. -/
namespace ModuleLoader.Loader

/-- Looks for a chain of waiting modules that closes on the path walked so far, latest first, and
gives the path that it was found on. `fuel` bounds the length of the path. -/
def waitingPath? (l : Loader) : Nat → List Locator → Locator → Option (List Locator)
  | 0, _, _ => none
  | fuel + 1, path, dependency => do
    let r ← l.entry? dependency
    let record := l.record r
    if record.status = .saved then
      let path := record.locator :: path
      if record.dependencies.any (path.contains ·) then some path
      else record.dependencies.findSome? (waitingPath? l fuel path)
    else none

/-- A path longer than this has passed through the same module twice with the same modules behind
it, so it would go on for ever. -/
def pathBound (l : Loader) : Nat := (l.registry.size + 1) * (l.registry.size + 2)

/-- The circle that waiting for a dependency would close, from the module back to itself. -/
def circle? (l : Loader) (module : Locator) (dependency : Locator) : Option (List Locator) :=
  (l.waitingPath? l.pathBound [module] dependency).map fun path => (module :: path).reverse

/-- The dependencies of a record that may be waited for, and one condition for each of the
others. -/
def pureDependencies (l : Loader) (r : RecordId) : List Locator × List Condition :=
  let record := l.record r
  let circles := record.dependencies.map fun d => (d, l.circle? record.locator d)
  (circles.filterMap fun (d, circle) => if circle.isNone then some d else none,
    circles.filterMap fun (_, circle) => circle.map .circularDependency)

/-- A dependency is waited for, or it has been found to close a circle. -/
theorem mem_pureDependencies {l : Loader} {r : RecordId} {d : Locator} :
    d ∈ (l.pureDependencies r).1 ↔
      d ∈ (l.record r).dependencies ∧ l.circle? (l.record r).locator d = none := by
  simp only [pureDependencies, List.filterMap_map, List.mem_filterMap, Function.comp]
  constructor
  · rintro ⟨e, listed, kept⟩
    split at kept
    · rename_i uncut
      cases kept
      exact ⟨listed, Option.isNone_iff_eq_none.mp uncut⟩
    · cases kept
  · rintro ⟨listed, uncut⟩
    exact ⟨d, listed, by rw [uncut]; rfl⟩

end ModuleLoader.Loader
