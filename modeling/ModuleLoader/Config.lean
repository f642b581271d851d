import ModuleLoader.Locator
import ModuleLoader.OrderedMap
import ModuleLoader.Text.Search

/-! What a host can set about a loader. -/
namespace ModuleLoader

/-- Replaces the leftmost occurrence of one text by another. -/
structure MapRule where
  old : String
  new : String
deriving DecidableEq

/-- A rule that looks for nothing changes nothing. -/
def MapRule.apply (rule : MapRule) (id : String) : String :=
  if rule.old.isEmpty then id
  else String.ofList (Text.replaceFirst rule.old.toList rule.new.toList id.toList)

/-- The identifiers after each of several rules, every one applied to what the one before left. -/
def MapRule.trail : List MapRule → String → List String
  | [], _ => []
  | rule :: rest, id => rule.apply id :: trail rest (rule.apply id)

structure Config where
  /-- The page itself, on whose behalf top-level requests are made. -/
  root : Locator := ⟨"page:/"⟩
  /-- Stands before top-level identifiers. -/
  base : String := "page:/"
  /-- Identifiers that stand for others. -/
  substitutes : OrderedMap String String := ∅
  /-- From locators to the resources they are retrieved from, applied in order. -/
  rules : List MapRule := []
  /-- Identifiers loaded and compiled before any others. -/
  preloads : List String := []
  charset : Option String := none

namespace Config

instance : Inhabited Config := ⟨{}⟩

/-- A base is a directory: it gets a slash at its end. -/
def withBase (config : Config) (base : String) : Config :=
  { config with base := if base.toList.getLast? = some '/' then base else base ++ "/" }

/-- A later substitute for the same identifier wins. -/
def withSubstitute (config : Config) (id target : String) : Config :=
  { config with substitutes := config.substitutes.insert id target }

/-- The substitutes in the order of their identifiers. -/
def sortedSubstitutes (config : Config) : List (String × String) :=
  config.substitutes.entries.mergeSort fun a b => decide (a.1 < b.1) || a.1 == b.1

end Config

end ModuleLoader
