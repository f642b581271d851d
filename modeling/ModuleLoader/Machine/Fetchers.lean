import ModuleLoader.Machine.Frame

/-! What fetchers do when they are asked, and when the host completes what they have queued. -/
namespace ModuleLoader.World

/-- Makes the registrations of a resource, in order. -/
def evaluate (w : World) (resource : PhysicalId) : World :=
  { w with loader := (w.fetcher.registrations resource).foldl Loader.define w.loader }

/-- Makes them under the locator that the retrieval was started for. -/
def evaluateDerived (w : World) (token : FetchToken) : World :=
  { w with
    loader := (w.fetcher.registrations token.resource).foldl
      (fun l registration => l.defineDerived registration (some token.locator)) w.loader }

def abandon (w : World) (token : FetchToken) : World :=
  { w with loader := w.loader.report (.fetchAbandoned token.resource) }

/-- Asks the fetcher for a resource. -/
def retrieve (w : World) (token : FetchToken) : World × List Frame :=
  let logged := { w with
    fetcher := w.fetcher.logRequest ⟨token.resource, w.loader.config.charset⟩ }
  match w.fetcher.policy with
  | .immediate => (logged.evaluate token.resource, [.retrieved token])
  | .barren => (w, [.retrieved token])
  | .queued =>
    ({ logged with fetcher.queue := logged.fetcher.queue ++ [token] }, [])
  | .derived => (logged.evaluateDerived token, [.retrieved token])
  | .manual =>
    ({ logged with fetcher.tokens := logged.fetcher.tokens.push (some token) }, [])
  | .forgetful => (logged.abandon token, [])

/-- Takes the oldest queued retrieval. -/
def takeNext? (w : World) : Option (World × FetchToken) :=
  match w.fetcher.queue with
  | token :: rest => some ({ w with fetcher.queue := rest }, token)
  | [] => none

/-- Takes the oldest queued retrieval of a resource. -/
def takeQueued? (w : World) (resource : PhysicalId) : Option (World × FetchToken) :=
  match w.fetcher.queue.find? (·.resource = resource) with
  | some token => some ({ w with fetcher.queue := w.fetcher.queue.erase token }, token)
  | none => none

/-- Answers a queued retrieval that was taken, and tells whether there was one. -/
def completeTaken (w : World) (site : Site) (action : String)
    (taken : Option (World × FetchToken)) : World × List Frame :=
  if w.fetcher.policy ≠ .queued then (w, [.conclude site (.reply action .nothing)])
  else
    match taken with
    | some (w, token) =>
      (w.evaluate token.resource,
        [.retrieved token, .conclude site (.reply action (.flag true))])
    | none => (w, [.conclude site (.reply action (.flag false))])

/-- The retrieval with a given number, as long as the host holds it. -/
def token? (w : World) (index : Nat) : Option FetchToken := (w.fetcher.tokens[index]?).join

def dropToken (w : World) (index : Nat) : World :=
  { w with fetcher.tokens := w.fetcher.tokens.setIfInBounds index none }

end ModuleLoader.World
