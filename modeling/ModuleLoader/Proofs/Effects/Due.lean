import ModuleLoader.Proofs.Effects.Step
import Mathlib.Algebra.Order.BigOperators.Group.List
import Mathlib.Algebra.Order.Ring.Nat

/-! What loads in progress go on to, weighed. It falls due when a load begins, and it is on the stack again
when the load is over. -/
namespace ModuleLoader

variable (weigh : Continuation → Nat)

namespace Loader

variable {l l' : Loader}

/-- The weight of all that loads in progress go on to. -/
def due (l : Loader) : Nat :=
  (l.barriers.cells.toList.map fun barrier => (barrier.onDone.map weigh).getD 0).sum

theorem due_same (barriers : l'.barriers = l.barriers) : l'.due weigh = l.due weigh := by
  rw [due, barriers, due]

theorem due_opened (opened : Barrier) (barriers : l'.barriers = l.barriers.push opened) :
    l'.due weigh = l.due weigh + (opened.onDone.map weigh).getD 0 := by
  rw [due, due, barriers, Table.push, Array.toList_push, List.map_append, List.sum_append,
    List.map_singleton, List.sum_singleton]

theorem due_changed {b : BarrierId} {f : Barrier → Barrier} (inside : b.index < l.barriers.size)
    (barriers : l'.barriers = l.barriers.modify b.index f) :
    l'.due weigh + ((l.barrier b).onDone.map weigh).getD 0 =
      l.due weigh + ((f (l.barrier b)).onDone.map weigh).getD 0 := by
  obtain ⟨before, after, split, changed⟩ := Table.split_of_lt inside
  rw [due, due, barriers, changed, split]
  simp only [List.map_append, List.map_cons, List.sum_append, List.sum_cons, Loader.barrier]
  omega

end Loader

/-- What a load goes on to when it is over was due before. -/
theorem World.Counted.due {w w' : World} {b : BarrierId} {frames : List Frame}
    (counted : w.Counted b w' frames) (inside : b.index < w.loader.barriers.size) :
    ∃ next : Option Continuation, frames = (next.map Frame.resume).toList ∧
      (next.map weigh).getD 0 + w'.loader.due weigh = w.loader.due weigh := by
  obtain ⟨-, barriers, rfl⟩ | ⟨-, barriers, rfl⟩ := counted
  · have ended := Loader.due_changed weigh inside barriers
    refine ⟨(w.loader.barrier b).onDone, rfl, ?_⟩
    rw [Nat.add_comm, ended]
    rfl
  · have left := Loader.due_changed weigh inside barriers
    refine ⟨none, rfl, ?_⟩
    dsimp only [Option.map_none, Option.getD_none] at *
    omega

end ModuleLoader
