import ModuleLoader.Proofs.Run

/-! What happens at a step that the host can tell from outside, and what is still to come: the callbacks
that work in progress leads to, and the retrievals that can still be completed. -/
namespace ModuleLoader

/-- Where a continuation ends up: at a point where entries come together, or at the host. -/
inductive Goal where
  | barrier (b : BarrierId)
  | callback (number : Nat)
deriving DecidableEq

mutual

def Continuation.goal : Continuation → Goal
  | .arrive b _ => .barrier b
  | .request _ receiver | .preload _ receiver | .gather _ receiver => receiver.goal
  | .call callback => .callback callback.number

def Receiver.goal : Receiver → Goal
  | .host callback => .callback callback.number
  | .discard next => next.goal

end

/-- Each entry of a load that has not come together with the others counts once. -/
def Frame.goals : Frame → List Goal
  | .load _ onDone | .resume onDone | .preload onDone => [onDone.goal]
  | .entries locators b => List.replicate locators.length (.barrier b)
  | .settled _ b => [.barrier b]
  | .request _ _ receiver | .gather _ _ receiver | .collect _ _ receiver | .deliver receiver _ =>
    [receiver.goal]
  | _ => []

/-- The retrieval that a frame is about to finish. -/
def Frame.token? : Frame → Option FetchToken
  | .retrieved token => some token
  | _ => none

/-- The retrievals that the host's fetcher can still complete. -/
def World.inHand (w : World) : List FetchToken :=
  w.fetcher.queue ++ w.fetcher.tokens.toList.filterMap id

inductive Occurrence where
  | none
  /-- The host passes a callback and asks for modules. -/
  | passed (number : Nat) (wanted : List Locator)
  | called (number : Nat)
  /-- The fetcher is asked for a resource. -/
  | started (token : FetchToken)
  /-- The fetcher says that it is done. -/
  | finished (token : FetchToken)
  | removed (locator : Locator)
deriving DecidableEq

namespace World

/-- The retrieval that an entry of a load starts, if it does. -/
def startedBy? (w : World) (locator : Locator) (b : BarrierId) : Option FetchToken :=
  let (loader, r) := w.loader.ensure locator .fetching
  if .fetched ≤ loader.status r then none
  else
    match (loader.awaitResource ⟨locator, b⟩).2 with
    | .started token => some token
    | .ready | .joined => none

/-- What an action asks for, where it is one that passes a callback. -/
def asks? (w : World) (site : Site) : Action → Option (List Locator)
  | .useModules ids _ _ => some (ids.filterMap (w.loader.resolve · none))
  | .load locators _ _ => some locators
  | .loadAsync ids _ _ =>
    site.context.map fun c => ids.filterMap (w.loader.resolve · (w.loader.record c.record).locator)
  | _ => none

end World

def Frame.occurrence (w : World) : Frame → Occurrence
  | .script site (action :: _) =>
    match w.asks? site action, action with
    | some wanted, _ => .passed w.issued wanted
    | none, .remove key => if w.loader.registry.contains ⟨key⟩ then .removed ⟨key⟩ else .none
    | none, _ => .none
  | .deliver (.host callback) _ | .resume (.call callback) => .called callback.number
  | .entries (locator :: _) b =>
    match w.startedBy? locator b with
    | some token => .started token
    | none => .none
  | .retrieved token => .finished token
  | _ => .none

/-- Which frame it takes to bring something about. -/
theorem Frame.of_occurrence (w : World) (frame : Frame) :
    match frame.occurrence w with
    | .called number => ∃ callback, callback.number = number ∧
        ((∃ interfaces, frame = .deliver (.host callback) interfaces) ∨ frame = .resume (.call callback))
    | .removed _ => ∃ site key later, frame = .script site (.remove key :: later)
    | .started token => ∃ locator later b, frame = .entries (locator :: later) b ∧
        w.startedBy? locator b = some token
    | .finished token => frame = .retrieved token
    | _ => True := by
  cases frame with
  | script site actions =>
    cases actions with
    | nil => trivial
    | cons action later =>
      cases action with
      | remove key =>
        simp only [occurrence, World.asks?]
        cases w.loader.registry.contains ⟨key⟩ with
        | true => exact ⟨site, key, later, rfl⟩
        | false => trivial
      | useModules | load => trivial
      | loadAsync =>
        simp only [occurrence, World.asks?]
        cases site.context <;> trivial
      | _ => trivial
  | deliver receiver interfaces =>
    cases receiver with
    | host callback => exact ⟨callback, rfl, .inl ⟨interfaces, rfl⟩⟩
    | discard next => trivial
  | resume next =>
    cases next with
    | call callback => exact ⟨callback, rfl, .inr rfl⟩
    | _ => trivial
  | entries locators b =>
    cases locators with
    | nil => trivial
    | cons locator later =>
      simp only [occurrence]
      cases starts : w.startedBy? locator b with
      | none => trivial
      | some token => exact ⟨locator, later, b, rfl, starts⟩
  | retrieved token => exact rfl
  | _ => trivial

namespace Frame

variable {w : World} {frame : Frame} {token : FetchToken}

/-- Callbacks are called when their interfaces are delivered, or when a load is done. -/
theorem of_calling {number : Nat} (called : frame.occurrence w = .called number) :
    ∃ callback, callback.number = number ∧
      ((∃ interfaces, frame = .deliver (.host callback) interfaces) ∨ frame = .resume (.call callback)) := by
  have brings := of_occurrence w frame
  rw [called] at brings
  exact brings

/-- Only an action of the host removes anything. -/
theorem of_removed {locator : Locator} (removes : frame.occurrence w = .removed locator) :
    ∃ site key later, frame = .script site (.remove key :: later) := by
  have brings := of_occurrence w frame
  rw [removes] at brings
  exact brings

/-- Only entries of loads start retrievals. -/
theorem of_started (starts : frame.occurrence w = .started token) :
    ∃ locator later b, frame = .entries (locator :: later) b ∧ w.startedBy? locator b = some token := by
  have brings := of_occurrence w frame
  rw [starts] at brings
  exact brings

theorem of_finished (finishes : frame.occurrence w = .finished token) : frame = .retrieved token := by
  have brings := of_occurrence w frame
  rw [finishes] at brings
  exact brings

end Frame

/-- What the next step brings. -/
def Machine.occurrence (m : Machine) : Occurrence :=
  match m.stack with
  | [] => .none
  | frame :: _ => frame.occurrence m.world

/-- The occurrences of the past, latest first. -/
def occurrences (past : List Machine) : List Occurrence := past.map Machine.occurrence

end ModuleLoader
