import ModuleLoader.Text.Quoted

/-! Names of modules. A locator is the canonical key of a module; a physical id names the resource
that it is retrieved from, and several locators may share one. -/
namespace ModuleLoader

structure Locator where
  text : String
deriving DecidableEq, Inhabited

structure PhysicalId where
  text : String
deriving DecidableEq, Inhabited

/-- The part up to and including the last slash; empty without one. -/
def Locator.directory (l : Locator) : String :=
  String.ofList (l.text.toList.reverse.dropWhile (· != '/')).reverse

def Locator.describe (l : Locator) : String := "Locator(" ++ Text.quoted l.text ++ ")"

/-- A resource named like the locator itself. -/
def PhysicalId.ofLocator (l : Locator) : PhysicalId := ⟨l.text⟩

def PhysicalId.describe (p : PhysicalId) : String := "PhysicalId(" ++ Text.quoted p.text ++ ")"

end ModuleLoader
