import ModuleLoader.Loader
import ModuleLoader.Value.Display

/-! Everything that a session can change: the loader, the memory of values, what the host remembers,
and the log of what its actions answered. -/
namespace ModuleLoader

/-- Answers as they are logged. -/
inductive Reply where
  | nothing
  | flag (b : Bool)
  | number (n : Int)
  | text (s : String)
  | many (replies : List Reply)
deriving Inhabited

/-- One line of the log: where, what, and the answer if one is given. -/
structure LogEntry where
  place : String
  action : String
  reply : Option Reply

/-- What the host's fetcher does with a request. -/
inductive FetchPolicy where
  /-- Registers what the resource holds and completes at once. -/
  | immediate
  /-- Knows no resources and completes at once. -/
  | barren
  /-- Queues the request; it is answered as if at once when the host says so. -/
  | queued
  /-- Registers under the locator that the retrieval is for, and completes at once. -/
  | derived
  /-- Hands the retrieval to the host. -/
  | manual
  /-- Gives the retrieval up. -/
  | forgetful
deriving DecidableEq

structure Fetcher where
  policy : FetchPolicy
  /-- Registrations by resource, in the order in which they are made. -/
  files : List (PhysicalId × Registration) := []
  requests : Array FetchRequest := #[]
  /-- Requests still to be answered, oldest first. -/
  queue : List FetchToken := []
  /-- Retrievals in the hands of the host, by number of request. -/
  tokens : Array (Option FetchToken) := #[]

namespace Fetcher

def registrations (f : Fetcher) (resource : PhysicalId) : List Registration :=
  f.files.filterMap fun (r, registration) => if r = resource then some registration else none

/-- Does the host itself see to retrievals? -/
def isHost (f : Fetcher) : Bool :=
  match f.policy with
  | .derived | .manual | .forgetful => true
  | .immediate | .barren | .queued => false

/-- How often a resource was asked for, as far as the table of files can tell. -/
def requestCount (f : Fetcher) (resource : PhysicalId) : Nat :=
  if f.isHost then 0 else (f.requests.toList.filter (·.resource = resource)).length

def logRequest (f : Fetcher) (request : FetchRequest) : Fetcher :=
  { f with requests := f.requests.push request }

end Fetcher

structure World where
  loader : Loader
  memory : Memory
  fetcher : Fetcher
  vars : OrderedMap String Value := ∅
  kept : OrderedMap String RecordId := ∅
  counters : OrderedMap String Int := ∅
  log : Array LogEntry := #[]
  /-- How many callbacks and patches were passed on so far. -/
  issued : Nat := 0
  /-- What the body or the compilation that ended last has answered. -/
  answer : Option Value := none

/-- The module whose body is running, and the interface that was handed to it. -/
structure Context where
  record : RecordId
  handed : Value

/-- Where an action stands. -/
structure Site where
  place : String
  context : Option Context

namespace World

def write (w : World) (place action : String) (reply : Option Reply) : World :=
  { w with log := w.log.push ⟨place, action, reply⟩ }

/-- Stores a value under a name, if one is given. -/
def store (w : World) (into : Option String) (value : Value) : World :=
  match into with
  | some name => { w with vars := w.vars.insert name value }
  | none => w

def display (w : World) (value : Value) : Reply := .text (value.display w.memory)

def displayOption (w : World) : Option Value → Reply
  | some value => w.display value
  | none => .nothing

/-- The record that an action means, if there is one. -/
def find? (w : World) (site : Site) : RecordRef → Option RecordId
  | .kept name => w.kept.get? name
  | .registered key => w.loader.entry? ⟨key⟩
  | .own => site.context.map Context.record

end World

end ModuleLoader
