import ModuleLoader.Diagnostic
import ModuleLoader.Locator

/-! What a loader reports of its own accord. None of these stops it. -/
namespace ModuleLoader

inductive Condition where
  /-- A dependency was not waited for. The chain starts and ends with the module that has it. -/
  | circularDependency (chain : List Locator)
  /-- A second registration without a name came in before a retrieval named the first. -/
  | duplicateAnonymous
  /-- The host could not tell which resource a registration came from. -/
  | derivationFailed (source : Option String)
  /-- An identifier to patch names nothing. -/
  | unresolvable (id : String)
  /-- A retrieval was given up by its fetcher. -/
  | fetchAbandoned (resource : PhysicalId)
deriving DecidableEq

namespace Condition

def chainText (chain : List Locator) : String :=
  " --> ".intercalate (chain.map Locator.text)

def code : Condition → String
  | circularDependency _ => "K0001"
  | duplicateAnonymous => "K0002"
  | derivationFailed _ => "K0003"
  | unresolvable _ => "K0004"
  | fetchAbandoned _ => "K0005"

def severity : Condition → Severity
  | duplicateAnonymous | fetchAbandoned _ => .error
  | circularDependency _ | derivationFailed _ | unresolvable _ => .warning

def message : Condition → String
  | circularDependency chain => "Found circular dependencies: " ++ chainText chain
  | duplicateAnonymous =>
    "anonymous module registered while another anonymous module is pending"
  | derivationFailed _ => "failed to derive locator for anonymous module"
  | unresolvable id => "cannot resolve module identifier `" ++ id ++ "`"
  | fetchAbandoned resource =>
    "fetch of `" ++ resource.text ++ "` was abandoned without completing"

def detail : Condition → Option String
  | circularDependency chain => some (chainText chain)
  | derivationFailed source => source
  | duplicateAnonymous | unresolvable _ | fetchAbandoned _ => none

def diagnostic (c : Condition) : Diagnostic :=
  { severity := c.severity, code := c.code, message := c.message, detail := c.detail }

end Condition

end ModuleLoader
