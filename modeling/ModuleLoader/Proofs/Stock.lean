import ModuleLoader.Session
import Mathlib.Algebra.Order.BigOperators.Group.List
import Mathlib.Algebra.Order.Ring.Nat

/-! What is still to be executed. Each action stands in a list, in a file, in a definition, in a patch or in a
callback, and what has not been executed is held by frames, by loads in progress and by the loader. A scale
weighs it, whatever it is that counts. -/
namespace ModuleLoader

/-! The text of a session. -/

mutual

/-- The occurrences of actions in a list and in all that is written down in it: each is given by the list
from the action on. -/
def Script.occurrences : List Action → List Script
  | [] => []
  | action :: rest => (action :: rest) :: (action.inner ++ Script.occurrences rest)

/-- The occurrences of actions within an action. -/
def Action.inner : Action → List Script
  | .loadAsync _ _ body | .useModules _ _ body | .load _ _ body | .modify _ body => Script.occurrences body
  | .define draft | .defineDerived draft _ | .describe draft | .addFile _ draft => draft.occurrences
  | .token _ action => action.inner
  | _ => []

def TokenAction.inner : TokenAction → List Script
  | .define draft | .defineDerived draft => draft.occurrences
  | _ => []

def Draft.occurrences : Draft → List Script
  | .mk _ _ factory => factory.occurrences

def FactoryDraft.occurrences : FactoryDraft → List Script
  | .function body _ => Script.occurrences body
  | .value _ => []

end

/-- All occurrences of actions in the files and in the steps of a session. -/
def Setup.text (setup : Setup) (program : List Action) : List Script :=
  setup.files.flatMap (fun file => file.2.occurrences) ++
    program.flatMap fun action => Script.occurrences [action]

/-! Weights. -/

/-- What it is worth that something is still to be done: `step` for an action, given with what stands behind
it, and `unit` for what the loader is asked to remember. -/
structure Scale where
  step : Script → Nat
  unit : Nat

namespace Scale

variable (σ : Scale)

/-- A request is worth something for itself and for each identifier that it has to resolve. -/
def request (ids : List String) : Nat := σ.unit * (ids.length + 1)

mutual

def script : List Action → Nat
  | [] => 0
  | action :: rest => σ.step (action :: rest) + (inner action + script rest)

/-- What is written down within an action, and what the action adds to the loader's own work. -/
def inner : Action → Nat
  | .loadAsync ids _ body | .useModules ids _ body => σ.request ids + script body
  | .load _ _ body => script body
  | .modify _ body => σ.unit + script body
  | .define d | .defineDerived d _ | .describe d | .addFile _ d => draft d
  | .preload _ => 3 * σ.unit
  | .token _ action => tokenAction action
  | _ => 0

def tokenAction : TokenAction → Nat
  | .define d | .defineDerived d => draft d
  | _ => 0

/-- A registration waits for its resource, then for a name, and then to be compiled. -/
def draft : Draft → Nat
  | .mk _ _ factory => 2 * σ.unit + factoryDraft factory

def factoryDraft : FactoryDraft → Nat
  | .function body _ => script body
  | .value _ => 0

end

def factory : Factory → Nat
  | .function body _ => σ.script body
  | .value _ => 0

def definition (d : Definition) : Nat := σ.unit + σ.factory d.factory

def registration (r : Registration) : Nat := 2 * σ.unit + σ.factory r.factory

def callback (c : Callback) : Nat := σ.script c.body

def patch (p : Patch) : Nat := σ.unit + σ.script p.body

mutual

def continuation : Continuation → Nat
  | .arrive .. => 0
  | .request ids r => σ.request ids + receiver r
  | .preload _ r | .gather _ r => receiver r
  | .call c => σ.callback c

def receiver : Receiver → Nat
  | .host c => σ.callback c
  | .discard next => continuation next

end

def frame : Frame → Nat
  | .script _ actions => σ.script actions
  | .load _ next | .resume next | .preload next => σ.continuation next
  | .request _ ids r => σ.request ids + σ.receiver r
  | .gather _ _ r | .collect _ _ r | .deliver r _ => σ.receiver r
  | .runFactory _ body => σ.script body
  | .runPatch _ p => σ.script p.body
  | _ => 0

def frames (fs : List Frame) : Nat := (fs.map σ.frame).sum

/-- A module's body is to be run until it is compiled. -/
def record (r : Record) : Nat := if r.status < .compiling then (r.factory.map σ.factory).getD 0 else 0

def barrier (b : Barrier) : Nat := (b.onDone.map σ.continuation).getD 0

def patches (queue : List Patch) : Nat := (queue.map σ.patch).sum

def records (t : Table Record) : Nat := (t.cells.toList.map σ.record).sum

def barriers (t : Table Barrier) : Nat := (t.cells.toList.map σ.barrier).sum

def queues (m : OrderedMap Locator (List Patch)) : Nat := (m.entries.map fun entry => σ.patches entry.2).sum

/-- All that a loader has still to run, and what it has still to do by itself. -/
def loader (l : Loader) : Nat :=
  σ.records l.records + σ.barriers l.barriers + σ.queues l.patches +
    (l.anonymous.map σ.definition).getD 0 + 3 * σ.unit * l.preloads.length

/-- The files of resources that have not been read yet. -/
def files (unread : PhysicalId → Bool) (table : List (PhysicalId × Registration)) : Nat :=
  (table.map fun file => if unread file.1 then σ.registration file.2 else 0).sum

/-! Sums. -/

@[simp] theorem frames_nil : σ.frames [] = 0 := rfl

@[simp] theorem frames_cons (f : Frame) (fs : List Frame) :
    σ.frames (f :: fs) = σ.frame f + σ.frames fs := by
  rw [frames, List.map_cons, List.sum_cons, frames]

@[simp] theorem frames_append (fs gs : List Frame) : σ.frames (fs ++ gs) = σ.frames fs + σ.frames gs := by
  rw [frames, List.map_append, List.sum_append, frames, frames]

theorem request_pos (ids : List String) : σ.unit ≤ σ.request ids :=
  Nat.le_mul_of_pos_right _ (Nat.succ_pos _)

/-- Requesting what is queued is worth less than what queueing it is. -/
theorem request_queued {queued : List String} (some : queued ≠ []) :
    σ.request queued + σ.unit ≤ 3 * σ.unit * queued.length := by
  obtain ⟨n, length⟩ := Nat.exists_eq_succ_of_ne_zero (mt List.length_eq_zero_iff.mp some)
  rw [request, length, ← Nat.mul_succ, Nat.mul_comm 3, Nat.mul_assoc]
  exact Nat.mul_le_mul_left _ (by omega)

/-! Evaluating a draft leaves its body. -/

theorem eval_draft (scope : Scope) (m : Memory) (d : Draft) :
    σ.registration (d.eval scope m).2 = σ.draft d := by
  obtain ⟨id, dependencies, factory⟩ := d
  cases factory <;> rfl

/-! Counting. -/

/-- Only the occurrences of some actions count. -/
def counting (p : Script → Bool) : Scale := ⟨fun actions => if p actions then 1 else 0, 0⟩

variable {p : Script → Bool}

theorem counting_request (ids : List String) : (counting p).request ids = 0 := Nat.zero_mul _

mutual

theorem counting_script : (actions : Script) →
    (counting p).script actions = (Script.occurrences actions).countP p
  | [] => rfl
  | action :: rest => by
    rw [script, counting_inner action, counting_script rest, Script.occurrences, List.countP_cons,
      List.countP_append, Nat.add_comm]
    rfl

theorem counting_inner : (action : Action) → (counting p).inner action = action.inner.countP p
  | .loadAsync ids tag body | .useModules ids tag body => by
    rw [inner, counting_request, Nat.zero_add, counting_script body, Action.inner]
  | .load locators tag body => by rw [inner, counting_script body, Action.inner]
  | .modify id body => by
    rw [inner, counting_script body, Action.inner]
    exact Nat.zero_add _
  | .define d | .defineDerived d _ | .describe d | .addFile _ d => by
    rw [inner, counting_draft d, Action.inner]
  | .token _ action => by rw [inner, counting_tokenAction action, Action.inner]
  | .value _ | .query _ | .get .. | .giveBack _ | .giveBackDependency _ | .compile .. | .preload _
  | .remove _ | .keep .. | .setExports .. | .complete _ | .completeNext | .completeAll | .report ..
  | .clearDiagnostics | .unknown _ => rfl

theorem counting_tokenAction : (action : TokenAction) →
    (counting p).tokenAction action = action.inner.countP p
  | .define d | .defineDerived d => by rw [tokenAction, counting_draft d, TokenAction.inner]
  | .look | .complete | .abandon => rfl

theorem counting_draft : (d : Draft) → (counting p).draft d = d.occurrences.countP p
  | .mk _ _ factory => by
    rw [draft, counting_factoryDraft factory, Draft.occurrences]
    exact Nat.zero_add _

theorem counting_factoryDraft : (f : FactoryDraft) →
    (counting p).factoryDraft f = f.occurrences.countP p
  | .function body _ => by rw [factoryDraft, counting_script body, FactoryDraft.occurrences]
  | .value _ => rfl

end

end Scale

end ModuleLoader
