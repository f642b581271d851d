import ModuleLoader.Diagnostic.Condition
import ModuleLoader.Event

/-! Where reports go: kept, followed as events, or dropped. -/
namespace ModuleLoader

inductive Sink where
  /-- Keeps reports in the order in which they came in. -/
  | buffer (held : List Diagnostic)
  /-- Turns reports into events. -/
  | tracing
  | silent
deriving DecidableEq

namespace Sink

/-- Reports that nobody asked to keep are followed as events. -/
def standard : Sink := tracing

/-- Named kinds; any other name means a buffer. -/
def ofName (name : String) : Sink :=
  if name = "silent" then silent
  else if name = "tracing" then tracing
  else if name = "default" then standard
  else buffer []

/-- The sink after a report, and the event that it gives rise to. -/
def emit (sink : Sink) (d : Diagnostic) : Sink × Option Event :=
  match sink with
  | buffer held => (buffer (held ++ [d]), none)
  | tracing => (tracing, some (.reported d))
  | silent => (silent, none)

/-- Nothing is held by a sink that does not keep reports. -/
def held : Sink → List Diagnostic
  | buffer ds => ds
  | tracing | silent => []

def clear : Sink → Sink
  | buffer _ => buffer []
  | tracing => tracing
  | silent => silent

/-- A buffer only ever gains the report at its end. -/
theorem held_emit (sink : Sink) (d : Diagnostic) :
    (sink.emit d).1.held = sink.held ++ [d] ∨ (sink.emit d).1.held = [] := by
  cases sink <;> simp [emit, held]

end Sink

end ModuleLoader
