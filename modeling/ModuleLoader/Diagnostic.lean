/-! Reports: how loud they are, and what they say. -/
namespace ModuleLoader

inductive Severity where
  | error
  | warning
  | note
deriving DecidableEq, Inhabited

def Severity.name : Severity → String
  | error => "error"
  | warning => "warning"
  | note => "note"

/-- Any name but the two louder ones means a note. -/
def Severity.ofName (name : String) : Severity :=
  if name = "error" then error else if name = "warning" then warning else note

theorem Severity.ofName_name (s : Severity) : ofName s.name = s := by cases s <;> decide

/-- One report. Its code is empty when it was worded freely. -/
structure Diagnostic where
  severity : Severity
  code : String
  message : String
  detail : Option String
deriving DecidableEq, Inhabited

namespace Diagnostic

/-- A report without a code. -/
def free (severity : Severity) (message : String) (detail : Option String) : Diagnostic :=
  { severity, code := "", message, detail }

/-- The code, if there is one, stands in brackets behind the severity. -/
def display (d : Diagnostic) : String :=
  if d.code.isEmpty then d.severity.name ++ ": " ++ d.message
  else d.severity.name ++ "[" ++ d.code ++ "]: " ++ d.message

end Diagnostic

end ModuleLoader
