import ModuleLoader.Loader.Fetching
import ModuleLoader.Loader.Pruning

/-! Waiting for several modules at once. Each entry of a load arrives once at the barrier of the
load, and the last arrival starts what goes on then. -/
namespace ModuleLoader.Loader

/-- Modules that are ready need not be loaded. -/
def needsLoading (l : Loader) (locator : Locator) : Bool :=
  match l.entry? locator with
  | some r => l.status r < .ready
  | none => true

def barrier (l : Loader) (b : BarrierId) : Barrier := l.barriers.get b.index

def newBarrier (l : Loader) (entries : Nat) (onDone : Continuation) : Loader × BarrierId :=
  let id : BarrierId := ⟨l.barriers.size⟩
  ({ l with barriers := l.barriers.push ⟨entries, some onDone⟩ }, id)

/-- A module whose dependencies have been waited for is ready. -/
def markReady (l : Loader) (r : RecordId) : Loader :=
  if l.status r < .ready then l.setStatus r .ready else l

/-- One entry less to wait for. The answer is what goes on, if this was the last one. -/
def countDown (l : Loader) (b : BarrierId) : Loader × Option Continuation :=
  let barrier := l.barrier b
  let remaining := barrier.remaining - 1
  if remaining = 0 then
    ({ l with barriers := l.barriers.modify b.index fun _ => ⟨remaining, none⟩ }, barrier.onDone)
  else
    ({ l with barriers := l.barriers.modify b.index ({ · with remaining }) }, none)

/-- Counts an entry at its barrier, with the module that was loaded if there is one. -/
def arrive (l : Loader) (b : BarrierId) (loaded : Option RecordId) :
    Loader × Option Continuation :=
  match loaded with
  | some r => (l.markReady r).countDown b
  | none => l.countDown b

/-- What an entry whose retrieval is over has to wait for next. -/
inductive Settled where
  /-- The locator stands for nothing that could be loaded. -/
  | missing
  /-- There are dependencies to load first. -/
  | waits (record : RecordId) (dependencies : List Locator)
  | ready (record : RecordId)

/-- The entry is read again, since its locator may stand for another module by now. -/
def settledEntry (l : Loader) (locator : Locator) : Loader × Settled :=
  match l.entry? locator with
  | none => (l, .missing)
  | some r =>
    if l.status r < .saved then (l, .missing)
    else
      let (dependencies, circles) := l.pureDependencies r
      (l.reportAll circles, if dependencies.isEmpty then .ready r else .waits r dependencies)

end ModuleLoader.Loader
