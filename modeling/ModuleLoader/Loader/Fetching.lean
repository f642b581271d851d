import ModuleLoader.Loader.Registering

/-! Retrieving resources: once while a retrieval is under way, and not again while the module that
it brought is at hand. -/
namespace ModuleLoader.Loader

/-- Has nothing been saved for a locator yet, and does it not stand for the record already? -/
def isFreeFor (l : Loader) (locator : Locator) (target : RecordId) : Bool :=
  match l.entry? locator with
  | some r => r ≠ target && l.status r < .saved
  | none => true

/-- Makes a free locator stand for a module that was retrieved for another one. -/
def share (l : Loader) (locator : Locator) (target : RecordId) : Loader :=
  if l.isFreeFor locator target then
    let own := (l.record target).locator
    let l := (l.note (.shared locator own)).point locator target
    if (l.record target).secondLocator.isNone && own ≠ locator then
      l.setSecondLocator target locator
    else l
  else l

/-- The record that a finished retrieval brought, if it is of use to a locator that asks: not if it
was removed since, and not if it is the asking locator's own. -/
def retrieved? (l : Loader) (resource : PhysicalId) (locator : Locator) : Option RecordId := do
  let first ← l.ledger.completed.get? resource
  let known ← l.entry? first
  if .fetched ≤ l.status known ∧ l.entry? locator ≠ some known then some known else none

/-- Forgets that a retrieval has finished. -/
def forgetCompleted (l : Loader) (resource : PhysicalId) : Loader :=
  { l with ledger.completed := l.ledger.completed.erase resource }

/-- What becomes of someone who needs a resource. -/
inductive FetchStart where
  /-- The module is at hand. -/
  | ready
  /-- A retrieval is under way and will answer. -/
  | joined
  /-- A retrieval has to be started. -/
  | started (token : FetchToken)
deriving DecidableEq

/-- Enters someone who needs a resource into the ledger. -/
def awaitResource (l : Loader) (waiter : Waiter) : Loader × FetchStart :=
  let resource := l.resolver.physicalId waiter.locator
  match l.retrieved? resource waiter.locator with
  | some known => (l.share waiter.locator known, .ready)
  | none =>
    let l := l.forgetCompleted resource
    match l.ledger.inFlight.get? resource with
    | some waiters =>
      let l := l.note (.joined waiter.locator resource)
      ({ l with ledger.inFlight := l.ledger.inFlight.insert resource (waiters ++ [waiter]) },
        .joined)
    | none =>
      let l := { l with ledger.inFlight := l.ledger.inFlight.insert resource [waiter] }
      (l.note (.fetch waiter.locator resource), .started ⟨resource, waiter.locator⟩)

/-- Moves a retrieval from those under way to the finished ones. -/
def closeRetrieval (l : Loader) (token : FetchToken) : Loader :=
  { l with
    ledger.completed := l.ledger.completed.insert token.resource token.locator
    ledger.inFlight := l.ledger.inFlight.erase token.resource }

def endFetching (l : Loader) (r : RecordId) : Loader :=
  if l.status r = .fetching then l.setStatus r .fetched else l

/-- A registration without a name gets the locator that the retrieval was started for. -/
def nameAnonymous (l : Loader) (locator : Locator) : Loader :=
  match l.anonymous with
  | some definition => ({ l with anonymous := none }.save locator definition).1
  | none => l

/-- If the resource registered nothing under the locator asked for, the locator stands for the first
module that it registered by name. -/
def takeFirstNamed (l : Loader) (locator : Locator) (r : RecordId) : Loader :=
  match l.firstNamed with
  | some first =>
    let l := { l with firstNamed := none }
    if l.status r = .fetched ∧ first ≠ r then (l.point locator first).setSecondLocator first locator
    else l
  | none => l

/-- A locator that joined a retrieval shares its result, even if that is nothing. -/
def settleJoined (l : Loader) (target : RecordId) (locator : Locator) : Loader :=
  if .saved ≤ l.status target then l.share locator target
  else
    match l.entry? locator with
    | some r => l.endFetching r
    | none => l

/-- All that a finished retrieval settles before those who waited for it go on. -/
def settle (l : Loader) (token : FetchToken) (waiters : List Waiter) : Loader :=
  let (l, r) := l.ensure token.locator .fetching
  let l := ((l.endFetching r).nameAnonymous token.locator).takeFirstNamed token.locator r
  match l.entry? token.locator with
  | some target =>
    ((waiters.map Waiter.locator).filter (· ≠ token.locator)).foldl (settleJoined · target) l
  | none => l

/-- Finishes a retrieval; the answer lists those who waited for it, in the order they came. -/
def finishFetch (l : Loader) (token : FetchToken) : Loader × List Waiter :=
  let waiters := (l.ledger.inFlight.get? token.resource).getD []
  (((l.note (.fetched token.locator token.resource)).closeRetrieval token).settle token waiters,
    waiters)

end ModuleLoader.Loader
