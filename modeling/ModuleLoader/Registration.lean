import ModuleLoader.DependencyScan
import ModuleLoader.Script
import ModuleLoader.Value

/-! What a module is registered with. -/
namespace ModuleLoader

/-- What defines an interface: a body to run once, or the interface itself. The source text of a
body only serves to find dependencies that were not listed. -/
inductive Factory where
  | function (body : Script) (source : Option String)
  | value (value : Value)
deriving Inhabited

namespace Factory

def source? : Factory → Option String
  | function _ source => source
  | value _ => none

def isFunction : Factory → Bool
  | function .. => true
  | value _ => false

end Factory

/-- An identifier and a dependency list may each be left out. -/
structure Registration where
  id : Option String
  dependencies : Option (List String)
  factory : Factory
deriving Inhabited

/-- A registration whose dependencies have been read, before they are resolved. -/
structure Definition where
  id : Option String
  dependencies : List String
  factory : Factory
deriving Inhabited

/-- Dependencies that are not listed are those that the source text names. -/
def Registration.definition (r : Registration) : Definition where
  id := r.id
  dependencies := r.dependencies.getD ((r.factory.source?.map DependencyScan.dependencies).getD [])
  factory := r.factory

end ModuleLoader
