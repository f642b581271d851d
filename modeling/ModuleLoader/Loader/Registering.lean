import ModuleLoader.Loader

/-! Registering modules. The first registration of a locator wins; one without a name waits for the
current retrieval to name it. -/
namespace ModuleLoader.Loader

/-- Identifiers of dependencies lose blanks around them; empty ones and those that name nothing are
left out. -/
def resolveDependencies (l : Loader) (locator : Locator) (ids : List String) : List Locator :=
  ids.filterMap fun id =>
    let id := Text.trim id
    if id.isEmpty then none else l.resolve id (some locator)

/-- Saves a definition under a locator, unless one has been saved there before. -/
def save (l : Loader) (locator : Locator) (definition : Definition) : Loader × RecordId :=
  let (l, r) := l.ensure locator .unknown
  if .saved ≤ l.status r then (l.note (.ignored locator), r)
  else
    let dependencies := l.resolveDependencies locator definition.dependencies
    (l.updateRecord r (·.save definition dependencies), r)

/-- Of two registrations without a name that wait at once only the later one is kept. -/
def park (l : Loader) (definition : Definition) : Loader :=
  let pending := l.anonymous.isSome
  let l := { l with anonymous := some definition }
  if pending then l.report .duplicateAnonymous else l

/-- A locator that an earlier module of the same resource took over goes back to a module of its
own, as long as the other one is not ready. -/
def dropTakeover (l : Loader) (locator : Locator) : Loader :=
  match l.entry? locator with
  | some r =>
    if (l.record r).secondLocator.isSome ∧ l.status r = .saved then
      let (l, fresh) := l.newRecord locator .unknown
      l.point locator fresh
    else l
  | none => l

/-- A locator whose retrieval is under way stands for the module that its resource has registered
under another name. -/
def takePlaceholder (l : Loader) (locator : Locator) (r : RecordId) : Loader :=
  match l.entry? locator with
  | some current =>
    if l.status current = .fetching ∧ current ≠ r then
      (l.point locator r).setSecondLocator r locator
    else l
  | none => l

/-- While any retrieval is under way, the first module registered by name is remembered. -/
def rememberFirst (l : Loader) (r : RecordId) : Loader :=
  if !l.ledger.inFlight.isEmpty && l.firstNamed.isNone then { l with firstNamed := some r } else l

/-- Registers a module. A locator that the host derived from the resource serves where there is no
identifier that names one. -/
def register (l : Loader) (registration : Registration) (derived : Option Locator) : Loader :=
  let definition := registration.definition
  match (definition.id.bind fun id => l.resolve id none).or derived with
  | none => l.park definition
  | some locator =>
    let l := if derived = some locator then l.dropTakeover locator else l
    let (l, r) := l.save locator definition
    match derived with
    | some derived => l.takePlaceholder derived r
    | none => l.rememberFirst r

def define (l : Loader) (registration : Registration) : Loader := l.register registration none

/-- A host that could not derive a locator for a registration without a name has failed. -/
def defineDerived (l : Loader) (registration : Registration) (derived : Option Locator) : Loader :=
  let l :=
    if derived.isNone && registration.id.isNone then
      l.report (.derivationFailed registration.factory.source?)
    else l
  l.register registration derived

end ModuleLoader.Loader
