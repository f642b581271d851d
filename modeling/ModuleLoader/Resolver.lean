import ModuleLoader.Config
import ModuleLoader.Path
import ModuleLoader.Text.Blank

/-! From identifiers to locators, and from locators to resources. -/
namespace ModuleLoader

/-- Resolving depends on nothing but its arguments. Without a referrer it is the page that asks. -/
structure Resolver where
  resolve : String → Option Locator → Option Locator
  physicalId : Locator → PhysicalId

namespace Config

/-- The text that an identifier stands for, before dot segments are resolved. An identifier with a
scheme stands for itself; a relative one for a path below the referrer's directory; one with a
leading slash for a path at the origin of the base; any other for a path below the base. -/
def joined (config : Config) (id : List Char) (referrer : Locator) : List Char :=
  if (Path.splitScheme? id).isSome then id
  else if Path.isRelative id then referrer.directory.toList ++ id
  else if Path.isAbsolute id then Path.origin config.base.toList ++ id
  else config.base.toList ++ id

/-- Blanks around an identifier do not count, and an empty one names nothing. -/
def resolve (config : Config) (id : String) (referrer : Option Locator) : Option Locator :=
  let id := Text.trim id
  if id.isEmpty then none
  else
    let id := (config.substitutes.get? id).getD id
    some ⟨String.ofList (Path.normalize (config.joined id.toList (referrer.getD config.root)))⟩

/-- The rules are applied one after the other. -/
def physicalId (config : Config) (locator : Locator) : PhysicalId :=
  ⟨config.rules.foldl (fun id rule => rule.apply id) locator.text⟩

/-- Resolution by paths. -/
def resolver (config : Config) : Resolver := ⟨config.resolve, config.physicalId⟩

end Config

/-- Names in one flat space, whoever asks. What starts with `!` names nothing. -/
def Resolver.flat : Resolver where
  resolve id _ := if id.toList.head? = some '!' then none else some ⟨"mem:" ++ id⟩
  physicalId := PhysicalId.ofLocator

end ModuleLoader
