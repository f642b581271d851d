import ModuleLoader.Locator
import ModuleLoader.OrderedMap
import ModuleLoader.Record

/-! Loads in progress: who waits for what, and what happens then. -/
namespace ModuleLoader

/-- The identity of the point where the entries of one load come together. -/
structure BarrierId where
  index : Nat
deriving DecidableEq, Inhabited

/-- Host code to run later, at a place that appears in the log. Callbacks and patches are numbered
in the order in which they are passed on, so that no two are the same. -/
structure Callback where
  number : Nat
  place : String
  body : Script
deriving Inhabited

/-- Host code that changes the interface of the module under a locator. -/
structure Patch where
  number : Nat
  target : Locator
  body : Script
deriving Inhabited

mutual

/-- What goes on when a load is done. -/
inductive Continuation where
  /-- A record's dependencies have been waited for: it counts at the barrier of its own load. -/
  | arrive (barrier : BarrierId) (record : RecordId)
  /-- Start a request from the page. -/
  | request (ids : List String) (receiver : Receiver)
  /-- The modules of a request are loaded: bring in what was queued to come before them. -/
  | preload (locators : List (Option Locator)) (receiver : Receiver)
  /-- Compile the modules of a request. -/
  | gather (locators : List (Option Locator)) (receiver : Receiver)
  /-- Call the host. -/
  | call (callback : Callback)

/-- Who is given the interfaces of a request. -/
inductive Receiver where
  | host (callback : Callback)
  /-- Nobody wants the interfaces; something else waits for them to be there. -/
  | discard (next : Continuation)

end

instance : Inhabited Continuation := ⟨.call default⟩

/-- A point where the entries of one load come together. -/
structure Barrier where
  remaining : Nat
  /-- What goes on after the last entry; it is taken out when it is started. -/
  onDone : Option Continuation
deriving Inhabited

/-- A locator that waits for a retrieval, on behalf of a load. -/
structure Waiter where
  locator : Locator
  barrier : BarrierId
deriving DecidableEq

/-- What is known about resources. -/
structure Ledger where
  /-- Retrievals under way, with those who wait for them in the order in which they came. -/
  inFlight : OrderedMap PhysicalId (List Waiter)
  /-- Finished retrievals, with the locator that each was started for. -/
  completed : OrderedMap PhysicalId Locator

def Ledger.empty : Ledger := ⟨∅, ∅⟩

/-- What a fetcher is asked to retrieve. -/
structure FetchRequest where
  resource : PhysicalId
  charset : Option String
deriving DecidableEq, Inhabited

/-- A retrieval that can still be completed: the resource, and the locator it was started for. -/
structure FetchToken where
  resource : PhysicalId
  locator : Locator
deriving DecidableEq, Inhabited

end ModuleLoader
