import ModuleLoader.Registration
import ModuleLoader.Status

/-! Module records. -/
namespace ModuleLoader

/-- The identity of a record. A registry may hold one record under several locators. -/
structure RecordId where
  index : Nat
deriving DecidableEq, Inhabited

structure Record where
  /-- The locator that the record was made for. -/
  locator : Locator
  status : Status
  declaredId : Option String := none
  dependencies : List Locator := []
  factory : Option Factory := none
  exports : Option Value := none
  /-- The module that asked for this one while it was not compiled. -/
  initiator : Option RecordId := none
  /-- A second locator that the record was registered under. -/
  secondLocator : Option Locator := none
deriving Inhabited

namespace Record

/-- The declared identifier, or else the locator. -/
def id (r : Record) : String := r.declaredId.getD r.locator.text

/-- The locators that patches for the record may be queued under. -/
def patchKeys (r : Record) : List Locator := r.secondLocator.toList ++ [r.locator]

/-- Takes over a definition, whose dependencies have been resolved. -/
def save (r : Record) (definition : Definition) (dependencies : List Locator) : Record :=
  { r with
    declaredId := definition.id
    dependencies
    factory := some definition.factory
    status := .saved }

/-- Starts compiling with a new interface. -/
def beginCompile (r : Record) (interface : Value) : Record :=
  { r with status := .compiling, exports := some interface }

end Record

end ModuleLoader
