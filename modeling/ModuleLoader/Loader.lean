import ModuleLoader.Request
import ModuleLoader.Resolver
import ModuleLoader.Sink
import ModuleLoader.Table

/-! The state of a module loader. There is no other: all that loading, registering and compiling
remember is in here. -/
namespace ModuleLoader

/-- Which record each locator stands for, in order of first registration. -/
abbrev Registry := OrderedMap Locator RecordId

structure Loader where
  config : Config
  resolver : Resolver
  sink : Sink
  records : Table Record := ∅
  registry : Registry := ∅
  ledger : Ledger := .empty
  barriers : Table Barrier := ∅
  /-- Patches that wait for their module, by the locator they were meant for. -/
  patches : OrderedMap Locator (List Patch) := ∅
  /-- Modules whose factories are running, innermost first. -/
  compiling : List RecordId := []
  /-- A registration without a name that waits for a retrieval to name it. -/
  anonymous : Option Definition := none
  /-- The first module that was registered by name during the current retrieval. -/
  firstNamed : Option RecordId := none
  /-- Identifiers still to be loaded before anything else. -/
  preloads : List String
  trace : Array Event := #[]

namespace Loader

def new (config : Config) (resolver : Resolver) (sink : Sink) : Loader :=
  { config, resolver, sink, preloads := config.preloads }

def note (l : Loader) (e : Event) : Loader := { l with trace := l.trace.push e }

def emit (l : Loader) (d : Diagnostic) : Loader :=
  let (sink, event) := l.sink.emit d
  let l := { l with sink }
  match event with
  | some e => l.note e
  | none => l

def report (l : Loader) (c : Condition) : Loader := l.emit c.diagnostic

def reportAll (l : Loader) (cs : List Condition) : Loader := cs.foldl report l

/-- Without a referrer it is the page that asks. -/
def resolve (l : Loader) (id : String) (referrer : Option Locator) : Option Locator :=
  l.resolver.resolve id (some (referrer.getD l.config.root))

def record (l : Loader) (r : RecordId) : Record := l.records.get r.index

def status (l : Loader) (r : RecordId) : Status := (l.record r).status

def entry? (l : Loader) (locator : Locator) : Option RecordId := l.registry.get? locator

def updateRecord (l : Loader) (r : RecordId) (f : Record → Record) : Loader :=
  { l with records := l.records.modify r.index f }

/-- Every change of status made this way can be followed. -/
def setStatus (l : Loader) (r : RecordId) (status : Status) : Loader :=
  let before := l.record r
  (l.updateRecord r fun record => { record with status }).note
    (.statusChanged before.locator before.status status)

def setExports (l : Loader) (r : RecordId) (value : Value) : Loader :=
  l.updateRecord r fun record => { record with exports := some value }

/-- Makes a locator stand for a record, at the place that the locator already has. -/
def point (l : Loader) (locator : Locator) (r : RecordId) : Loader :=
  { l with registry := l.registry.insert locator r }

def setSecondLocator (l : Loader) (r : RecordId) (locator : Locator) : Loader :=
  l.updateRecord r fun record => { record with secondLocator := some locator }

/-- A new record, which no locator stands for yet. -/
def newRecord (l : Loader) (locator : Locator) (status : Status) : Loader × RecordId :=
  let id : RecordId := ⟨l.records.size⟩
  ({ l with records := l.records.push { locator, status } }, id)

/-- The record that a locator stands for, or else a new one in the given status. -/
def ensure (l : Loader) (locator : Locator) (status : Status) : Loader × RecordId :=
  match l.entry? locator with
  | some r => (l, r)
  | none =>
    let (l, r) := l.newRecord locator status
    (l.point locator r, r)

/-- Forgets what a locator stands for. -/
def remove (l : Loader) (locator : Locator) : Loader :=
  { l with registry := l.registry.erase locator }

/-- The innermost module whose factory is running. -/
def compilingModule? (l : Loader) : Option RecordId := l.compiling.head?

def addPreload (l : Loader) (id : String) : Loader := { l with preloads := l.preloads ++ [id] }

/-- The interfaces of compiled modules whose locators are selected, in registry order. -/
def find (l : Loader) (selector : Selector) : List Value :=
  l.registry.entries.filterMap fun (locator, r) =>
    if selector.selects locator ∧ l.status r = .compiled then (l.record r).exports else none

end Loader

end ModuleLoader
