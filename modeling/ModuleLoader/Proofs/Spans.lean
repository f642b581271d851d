import Mathlib.Data.List.TakeWhile

/-! The characters of one kind that a text begins with, as many as there are. -/
namespace ModuleLoader.Text

variable {p : Char → Bool}

/-- What comes behind is of another kind. -/
theorem head?_dropWhile {text : List Char} : ∀ c ∈ (text.dropWhile p).head?, p c = false := by
  intro c first
  have stops := List.head?_dropWhile_not p text
  rw [Option.mem_def.mp first] at stops
  exact stops

/-- Characters of one kind in front of one of another kind are found again. -/
theorem span_append {body rest : List Char} (inside : ∀ c ∈ body, p c = true)
    (stops : ∀ c ∈ rest.head?, p c = false) :
    (body ++ rest).takeWhile p = body ∧ (body ++ rest).dropWhile p = rest := by
  rw [List.takeWhile_append_of_pos inside, List.dropWhile_append_of_pos inside]
  cases rest with
  | nil => simp
  | cons c rest => simp [stops c rfl]

/-- Up to a character that does not occur before. -/
theorem span_ne {mark : Char} {body rest : List Char} (inside : mark ∉ body) (stops : ∀ c ∈ rest.head?, c = mark) :
    (body ++ rest).takeWhile (· != mark) = body ∧ (body ++ rest).dropWhile (· != mark) = rest :=
  span_append (fun c member => bne_iff_ne.mpr fun same => inside (same ▸ member))
    (fun c first => by rw [stops c first, bne_self_eq_false])

theorem not_mem_takeWhile_ne (mark : Char) (text : List Char) : mark ∉ text.takeWhile (· != mark) :=
  fun member => by simpa using List.mem_takeWhile_imp member

theorem head?_dropWhile_ne (mark : Char) (text : List Char) : ∀ c ∈ (text.dropWhile (· != mark)).head?, c = mark :=
  fun c first => by simpa using head?_dropWhile c first

end ModuleLoader.Text
