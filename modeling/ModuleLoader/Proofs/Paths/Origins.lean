import ModuleLoader.Path
import ModuleLoader.Proofs.Spans

/-! Where the origin of a text ends and its path begins. An origin and a path are found again in the text that
they make if no slash of the path can be taken for a part of the origin. -/
namespace ModuleLoader.Path

/-- The text begins with a scheme. -/
def Schemed (text : List Char) : Prop := (splitScheme? text).isSome = true

instance (text : List Char) : Decidable (Schemed text) := inferInstanceAs (Decidable (_ = true))

/-- An origin in front of a path. Without an authority the path does not begin with two slashes; behind an
authority it is empty or begins with a slash. -/
inductive Leads : List Char → List Char → Prop where
  | scheme {name path : List Char} (valid : isSchemeName name = true) (single : ¬ ['/', '/'] <+: path) :
      Leads (name ++ [':']) path
  | authority {name host path : List Char} (valid : isSchemeName name = true) (inside : '/' ∉ host)
      (stops : ∀ c ∈ path.head?, c = '/') : Leads (name ++ ':' :: '/' :: '/' :: host) path

theorem mem_schemeName {name : List Char} (valid : isSchemeName name = true) {c : Char} (member : c ∈ name) :
    c ≠ ':' ∧ c ≠ '/' := by
  have first (c : Char) (letter : c.isAlpha = true) : c ≠ ':' ∧ c ≠ '/' := by
    constructor <;> rintro rfl <;> exact absurd letter (by decide)
  cases name with
  | nil => cases member
  | cons d more =>
    simp only [isSchemeName, Bool.and_eq_true, List.all_eq_true] at valid
    rcases List.mem_cons.mp member with rfl | member
    · exact first _ valid.1
    · have inside := valid.2 c member
      constructor <;> rintro rfl <;> exact absurd inside (by decide)

theorem splitScheme?_eq_some_iff {text scheme rest : List Char} :
    splitScheme? text = some (scheme, rest) ↔
      ∃ name, isSchemeName name = true ∧ scheme = name ++ [':'] ∧ text = name ++ ':' :: rest := by
  constructor
  · intro split
    unfold splitScheme? at split
    split at split
    · cases split
    · rename_i colon tail found
      obtain ⟨valid, same⟩ := Option.ite_none_right_eq_some.mp split
      cases same
      obtain rfl := Text.head?_dropWhile_ne ':' text colon (by rw [found]; rfl)
      exact ⟨_, valid, rfl, by rw [← found, List.takeWhile_append_dropWhile]⟩
  · rintro ⟨name, valid, rfl, rfl⟩
    have before : ∀ c ∈ name, (c != ':') = true := fun c member => bne_iff_ne.mpr (mem_schemeName valid member).1
    simp [splitScheme?, List.takeWhile_append_of_pos before, List.dropWhile_append_of_pos before, valid]

theorem schemed_iff {text : List Char} :
    Schemed text ↔ ∃ name rest, isSchemeName name = true ∧ text = name ++ ':' :: rest := by
  rw [Schemed, Option.isSome_iff_exists]
  constructor
  · rintro ⟨⟨scheme, rest⟩, split⟩
    obtain ⟨name, valid, -, written⟩ := splitScheme?_eq_some_iff.mp split
    exact ⟨name, rest, valid, written⟩
  · rintro ⟨name, rest, valid, written⟩
    exact ⟨_, splitScheme?_eq_some_iff.mpr ⟨name, valid, rfl, written⟩⟩

/-- The origin of a text with a scheme leads its path. -/
theorem leads_splitOrigin {text : List Char} (schemed : Schemed text) :
    Leads (splitOrigin text).1 (splitOrigin text).2 := by
  obtain ⟨name, rest, valid, rfl⟩ := schemed_iff.mp schemed
  have split := splitScheme?_eq_some_iff.mpr ⟨name, valid, rfl, (rfl : name ++ ':' :: rest = _)⟩
  unfold splitOrigin
  split
  · rename_i none
    rw [split] at none
    cases none
  · rename_i tail some
    rw [split] at some
    cases some
    rw [List.append_assoc]
    exact .authority valid (Text.not_mem_takeWhile_ne '/' tail) (Text.head?_dropWhile_ne '/' tail)
  · rename_i other some
    rw [split] at some
    cases some
    refine .scheme valid ?_
    rintro ⟨tail, rfl⟩
    exact other tail rfl

/-- An origin that leads a path is the origin of the text. -/
theorem Leads.splitOrigin {origin path : List Char} (leads : Leads origin path) :
    splitOrigin (origin ++ path) = (origin, path) := by
  cases leads with
  | @scheme name _ valid single =>
    have split := splitScheme?_eq_some_iff.mpr ⟨name, valid, rfl, (rfl : name ++ ':' :: path = _)⟩
    rw [List.append_assoc, List.singleton_append, Path.splitOrigin, split]
    split
    · rename_i none
      cases none
    · rename_i tail some
      cases some
      exact absurd ⟨tail, rfl⟩ single
    · rename_i some
      cases some
      rfl
  | @authority name host _ valid inside stops =>
    have split := splitScheme?_eq_some_iff.mpr ⟨name, valid, rfl, (rfl : name ++ ':' :: '/' :: '/' :: (host ++ path) = _)⟩
    have host := Text.span_ne inside stops
    simp only [List.append_assoc, List.cons_append, List.nil_append, Path.splitOrigin, split, host]

theorem Leads.origin {origin path : List Char} (leads : Leads origin path) :
    Path.origin (origin ++ path) = origin := by
  rw [Path.origin, leads.splitOrigin]

theorem Leads.schemed {origin path : List Char} (leads : Leads origin path) : Schemed (origin ++ path) := by
  cases leads with
  | @scheme name _ valid => exact schemed_iff.mpr ⟨name, path, valid, by simp⟩
  | @authority name host _ valid => exact schemed_iff.mpr ⟨name, '/' :: '/' :: (host ++ path), valid, by simp⟩

end ModuleLoader.Path
