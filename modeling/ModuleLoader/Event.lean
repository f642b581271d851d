import ModuleLoader.Diagnostic
import ModuleLoader.Locator
import ModuleLoader.Status

/-! What can be followed from outside while a loader works. -/
namespace ModuleLoader

inductive Event where
  /-- A retrieval starts for a locator. -/
  | fetch (locator : Locator) (resource : PhysicalId)
  /-- The retrieval started for a locator has finished. -/
  | fetched (locator : Locator) (resource : PhysicalId)
  /-- A locator waits for a retrieval that is already under way. -/
  | joined (locator : Locator) (resource : PhysicalId)
  | statusChanged (locator : Locator) (before after : Status)
  /-- A locator now stands for the module of another one. -/
  | shared (locator : Locator) (target : Locator)
  /-- A registration came too late to count. -/
  | ignored (locator : Locator)
  | patchQueued (locator : Locator)
  | preloading (ids : List String)
  | reported (diagnostic : Diagnostic)
deriving DecidableEq

namespace Event

def level : Event → String
  | fetch .. | fetched .. | preloading _ => "DEBUG"
  | joined .. | statusChanged .. | shared .. | ignored _ | patchQueued _ => "TRACE"
  | reported d =>
    match d.severity with
    | .error => "ERROR"
    | .warning => "WARN"
    | .note => "INFO"

/-- Reports alone are of interest to someone who does not debug the loader. -/
def isReport : Event → Bool
  | reported _ => true
  | _ => false

def message : Event → String
  | fetch .. => "fetch"
  | fetched .. => "fetched"
  | joined .. => "joining in-flight fetch"
  | statusChanged .. => "status"
  | shared .. => "alias"
  | ignored _ => "already saved; registration ignored"
  | patchQueued _ => "patch queued"
  | preloading _ => "preload"
  | reported d => d.message

def fields : Event → List (String × String)
  | fetch l p | fetched l p | joined l p => [("locator", l.text), ("physical_id", p.text)]
  | statusChanged l before after =>
    [("locator", l.text), ("from", before.name), ("to", after.name)]
  | shared l target => [("locator", l.text), ("target", target.text)]
  | ignored l | patchQueued l => [("locator", l.text)]
  | preloading ids => [("ids", "[" ++ ", ".intercalate (ids.map Text.quoted) ++ "]")]
  | reported d => [("code", d.code), ("detail", d.detail.getD "")]

end Event

end ModuleLoader
