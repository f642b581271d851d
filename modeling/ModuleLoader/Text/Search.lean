/-! Occurrences of one text in another, from the left. -/
namespace ModuleLoader.Text

/-- Does `part` occur in the text? The empty text occurs everywhere. -/
def occursIn (part : List Char) : List Char → Bool
  | [] => part.isEmpty
  | c :: cs => part.isPrefixOf (c :: cs) || occursIn part cs

/-- The leftmost occurrence of a non-empty `old` becomes `new`. -/
def replaceFirst (old new : List Char) : List Char → List Char
  | [] => []
  | c :: cs =>
    if old.isPrefixOf (c :: cs) then new ++ (c :: cs).drop old.length
    else c :: replaceFirst old new cs

theorem occursIn_iff (part text : List Char) : occursIn part text = true ↔ part <:+: text := by
  induction text with
  | nil => simp [occursIn, List.isEmpty_iff]
  | cons c cs ih => simp [occursIn, ih, List.infix_cons_iff, List.isPrefixOf_iff_prefix]

/-- A text without the replaced part stays as it is. -/
theorem replaceFirst_of_not_infix {old new text : List Char} (h : ¬ old <:+: text) :
    replaceFirst old new text = text := by
  induction text with
  | nil => rfl
  | cons c cs ih =>
    rw [List.infix_cons_iff, not_or] at h
    rw [replaceFirst, if_neg (by simpa using h.1), ih h.2]

end ModuleLoader.Text
