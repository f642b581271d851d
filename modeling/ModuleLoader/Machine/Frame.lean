import ModuleLoader.Loader.Compiling
import ModuleLoader.Loader.Loading
import ModuleLoader.Machine.Queries

/-! Work that is still to be done, as data. A call that has to wait for others to return leaves
frames below theirs. -/
namespace ModuleLoader

/-- What is logged when an action's calls have returned. -/
inductive Conclusion where
  /-- The interface of a dependency. -/
  | got (into : Option String) (key : Option String)
  | compiled (into : Option String)
  | reply (action : String) (reply : Reply)

inductive Frame where
  /-- The rest of a list of actions. -/
  | script (site : Site) (actions : Script)
  | conclude (site : Site) (conclusion : Conclusion)
  | load (locators : List Locator) (onDone : Continuation)
  /-- Entries of a load that have not been looked at yet. -/
  | entries (locators : List Locator) (barrier : BarrierId)
  /-- An entry of a load whose retrieval is over. -/
  | settled (locator : Locator) (barrier : BarrierId)
  | resume (continuation : Continuation)
  /-- Load identifiers as seen from a referrer, and hand over the interfaces. -/
  | request (referrer : Option Locator) (ids : List String) (receiver : Receiver)
  /-- Bring in what is queued to come first. -/
  | preload (next : Continuation)
  /-- Compile module after module, with the interfaces so far. -/
  | gather (locators : List (Option Locator)) (interfaces : List (Option Value))
      (receiver : Receiver)
  /-- Take down the interface that was compiled last. -/
  | collect (locators : List (Option Locator)) (interfaces : List (Option Value))
      (receiver : Receiver)
  | deliver (receiver : Receiver) (interfaces : List (Option Value))
  /-- A retrieval is complete. -/
  | retrieved (token : FetchToken)
  | compile (record : RecordId)
  | runFactory (record : RecordId) (body : Script)
  | runPatch (record : RecordId) (patch : Patch)
  /-- What a body gave back replaces the interface. -/
  | replaceInterface (record : RecordId)
  | leaveFactory
  /-- The factory has run; now the patches. -/
  | finishCompile (record : RecordId)
  | applyPatches (key : Locator) (record : RecordId)
  | answerExports (record : RecordId)
  /-- Complete queued retrievals until there are none. -/
  | completeRest (site : Site) (done : Nat)

end ModuleLoader
