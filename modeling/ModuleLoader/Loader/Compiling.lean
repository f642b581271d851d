import ModuleLoader.Loader

/-! Compiling and patching, as far as they concern the loader's own state. -/
namespace ModuleLoader.Loader

def hasPatches (l : Loader) (r : RecordId) : Bool :=
  (l.record r).patchKeys.any l.patches.contains

/-- A module that never was saved is compiled only for the sake of its patches. -/
def canCompile (l : Loader) (r : RecordId) : Bool :=
  .saved ≤ l.status r || l.hasPatches r

def queuePatch (l : Loader) (patch : Patch) : Loader :=
  let queued := (l.patches.get? patch.target).getD [] ++ [patch]
  { l with patches := l.patches.insert patch.target queued }.note (.patchQueued patch.target)

/-- Takes the patches that wait under a locator out of the queue. -/
def takePatches (l : Loader) (locator : Locator) : Loader × List Patch :=
  ({ l with patches := l.patches.erase locator }, (l.patches.get? locator).getD [])

def beginCompile (l : Loader) (r : RecordId) (interface : Value) : Loader :=
  l.updateRecord r (·.beginCompile interface)

def setInitiator (l : Loader) (r initiator : RecordId) : Loader :=
  l.updateRecord r fun record => { record with initiator := some initiator }

def enterFactory (l : Loader) (r : RecordId) : Loader :=
  { l with compiling := r :: l.compiling }

def leaveFactory (l : Loader) : Loader := { l with compiling := l.compiling.tail }

end ModuleLoader.Loader
