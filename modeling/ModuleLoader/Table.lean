/-! Tables that only grow: a cell gets its index when it is added and keeps it for ever. -/
namespace ModuleLoader

/-- Cells by index. -/
structure Table (α : Type) where
  cells : Array α

namespace Table

variable {α : Type}

instance : EmptyCollection (Table α) := ⟨⟨#[]⟩⟩

instance : Inhabited (Table α) := ⟨∅⟩

def size (t : Table α) : Nat := t.cells.size

/-- A cell outside the table reads as the default. -/
def get [Inhabited α] (t : Table α) (i : Nat) : α := t.cells.getD i default

/-- The new cell has the old size as its index. -/
def push (t : Table α) (a : α) : Table α := ⟨t.cells.push a⟩

def modify (t : Table α) (i : Nat) (f : α → α) : Table α := ⟨t.cells.modify i f⟩

@[simp] theorem size_empty : (∅ : Table α).size = 0 := rfl

@[simp] theorem size_push (t : Table α) (a : α) : (t.push a).size = t.size + 1 := by
  simp [size, push]

@[simp] theorem size_modify (t : Table α) (i : Nat) (f : α → α) : (t.modify i f).size = t.size := by
  simp [size, modify]

theorem get_push [Inhabited α] (t : Table α) (a : α) (i : Nat) :
    (t.push a).get i = if i = t.size then a else t.get i := by
  simp only [get, push, size, Array.getD_eq_getD_getElem?, Array.getElem?_push]
  split <;> simp_all

theorem get_modify [Inhabited α] (t : Table α) (i j : Nat) (f : α → α) :
    (t.modify i f).get j = if i = j ∧ j < t.size then f (t.get j) else t.get j := by
  simp only [get, modify, size, Array.getD_eq_getD_getElem?, Array.getElem?_modify]
  by_cases h : i = j
  · subst h
    by_cases hs : i < t.cells.size <;> simp [hs]
  · simp [h]

/-- The cells around the one that is modified. -/
theorem split_of_lt [Inhabited α] {t : Table α} {i : Nat} (inside : i < t.size) :
    ∃ before after, t.cells.toList = before ++ t.get i :: after ∧
      ∀ f, (t.modify i f).cells.toList = before ++ f (t.get i) :: after := by
  rw [size, ← Array.length_toList] at inside
  have here : t.get i = t.cells.toList[i] := by
    rw [get, Array.getD_eq_getD_getElem?, ← Array.getElem?_toList, List.getElem?_eq_getElem inside,
      Option.getD_some]
  refine ⟨t.cells.toList.take i, t.cells.toList.drop (i + 1), ?_, fun f => ?_⟩
  · rw [here, List.getElem_cons_drop, List.take_append_drop]
  · rw [modify, Array.toList_modify, List.modify_eq_take_cons_drop inside, here]

end Table

end ModuleLoader
