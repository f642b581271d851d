import ModuleLoader.Machine.Step

/-! Sessions: a loader, a host with its files, and steps that the host takes one after the other. -/
namespace ModuleLoader

/-- What a session starts with. -/
structure Setup where
  config : Config
  resolver : Resolver
  policy : FetchPolicy
  sink : Sink
  files : List (PhysicalId × Draft)

/-- The outer place, where no body is running. -/
def Site.outer : Site := ⟨"", none⟩

namespace World

/-- Files are read once, in order, before anything else happens. -/
def start (setup : Setup) : World :=
  let world : World :=
    { loader := .new setup.config setup.resolver setup.sink
      memory := .empty
      fetcher := { policy := setup.policy } }
  setup.files.foldl (fun w (resource, draft) =>
    let (w, registration) := w.evalDraft .outer draft
    { w with fetcher.files := w.fetcher.files ++ [(resource, registration)] }) world

/-- Takes one step of the host and does all the work that it leaves, in at most `fuel` steps of the
machine. -/
def perform (fuel : Nat) (w : World) (action : Action) : World :=
  (Machine.run fuel ⟨w, [.script .outer [action]]⟩).world

/-- One line for each locator: what it is, the first line that shows the same record, and the
record itself. -/
def registryRows (w : World) (withExports : Bool) : List Reply :=
  let records := w.loader.registry.entries.map Prod.snd
  w.loader.registry.entries.map fun (locator, r) =>
    .many (locator.reply :: .number (records.idxOf r) ::
      if withExports then w.info r else w.outline r)

end World

/-- What can be seen of a session from outside. -/
structure Snapshot where
  registry : List Reply
  pending : List PhysicalId
  diagnostics : Nat
  requests : List FetchRequest

def World.snapshot (w : World) (withExports : Bool) : Snapshot where
  registry := w.registryRows withExports
  pending := w.fetcher.queue.map FetchToken.resource
  diagnostics := w.loader.sink.held.length
  requests := w.fetcher.requests.toList

/-- What one step has brought. -/
structure StepReport where
  log : List LogEntry
  /-- Reports beyond those that were held when the step began. -/
  diagnostics : List Diagnostic
  events : List Event
  after : World

/-- Takes one step and looks at what it has brought. -/
def World.reportStep (fuel : Nat) (w : World) (action : Action) : StepReport :=
  let after := w.perform fuel action
  { log := after.log.toList.drop w.log.size
    diagnostics := after.loader.sink.held.drop w.loader.sink.held.length
    events := after.loader.trace.toList.drop w.loader.trace.size
    after }

/-- Takes the steps of a session one after the other. -/
def World.play (fuel : Nat) (w : World) : List Action → List StepReport
  | [] => []
  | action :: rest =>
    let report := w.reportStep fuel action
    report :: report.after.play fuel rest

end ModuleLoader
