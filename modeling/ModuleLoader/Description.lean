import ModuleLoader.Loader
import ModuleLoader.Value.Display

/-! Descriptions: a name and fields in braces, two dots for what is left out. -/
namespace ModuleLoader

namespace Describe

def option {α : Type} (f : α → String) : Option α → String
  | some a => "Some(" ++ f a ++ ")"
  | none => "None"

def list {α : Type} (f : α → String) (xs : List α) : String :=
  "[" ++ ", ".intercalate (xs.map f) ++ "]"

/-- Fields in braces behind a name. -/
def fields (name : String) (parts : List String) : String :=
  name ++ " \x7b " ++ ", ".intercalate parts ++ " \x7d"

end Describe

open Describe

def Record.describe (r : Record) : String :=
  fields "Module"
    ["locator: " ++ r.locator.describe, "status: " ++ r.status.describe,
      "dependencies: " ++ list Locator.describe r.dependencies,
      "alias: " ++ option Locator.describe r.secondLocator, ".."]

def Loader.describeRegistry (l : Loader) : String :=
  let entry (e : Locator × RecordId) := e.1.describe ++ ": " ++ (l.record e.2).describe
  "\x7b" ++ ", ".intercalate (l.registry.entries.map entry) ++ "\x7d"

def Loader.describe (l : Loader) : String :=
  fields "Loader"
    ["root: " ++ l.config.root.describe, "registry: " ++ l.describeRegistry, ".."]

def Factory.describe (m : Memory) : Factory → String
  | .function _ source => fields "Function" ["source: " ++ option Text.quoted source, ".."]
  | .value v => "Value(" ++ v.display m ++ ")"

/-- The name says which parts the registration has. -/
def Registration.describe (m : Memory) (r : Registration) : String :=
  let factory := "factory: " ++ r.factory.describe m
  match r.id, r.dependencies with
  | none, none => "Factory(" ++ r.factory.describe m ++ ")"
  | some id, none => fields "Named" ["id: " ++ Text.quoted id, factory]
  | none, some deps => fields "WithDeps" ["deps: " ++ list Text.quoted deps, factory]
  | some id, some deps =>
    fields "Full" ["id: " ++ Text.quoted id, "deps: " ++ list Text.quoted deps, factory]

/-- A registration behind its identifier and whether its factory is a function. -/
def Registration.describeParts (m : Memory) (r : Registration) : String :=
  option Text.quoted r.id ++ " " ++ (if r.factory.isFunction then "true" else "false") ++ " " ++
    r.describe m

def FetchRequest.describe (r : FetchRequest) : String :=
  fields "FetchRequest"
    ["physical_id: " ++ r.resource.describe, "charset: " ++ option Text.quoted r.charset]

/-- A token that can still be shown has not been completed. -/
def FetchToken.describe (t : FetchToken) : String :=
  fields "FetchCompletion"
    ["physical_id: " ++ t.resource.describe, "locator: " ++ t.locator.describe,
      "completed: false", ".."]

/-- What a body asks for its dependencies, described by the module that it belongs to. -/
def Record.describeAccessor (r : Record) : String :=
  fields "Require" ["module: " ++ r.locator.describe, ".."]

end ModuleLoader
