/-! The shape of a locator's text: an origin, then a path of segments between slashes. Normalizing
resolves dot segments and collapses repeated slashes. -/
namespace ModuleLoader.Path

/-- A scheme name starts with a letter. -/
def isSchemeName : List Char → Bool
  | [] => false
  | c :: cs => c.isAlpha && cs.all fun c => c.isAlphanum || c == '+' || c == '-' || c == '.'

/-- The scheme with its colon, and what follows; nothing if the text before the first colon is no
scheme name. -/
def splitScheme? (text : List Char) : Option (List Char × List Char) :=
  let name := text.takeWhile (· != ':')
  match text.dropWhile (· != ':') with
  | [] => none
  | colon :: rest => if isSchemeName name then some (name ++ [colon], rest) else none

/-- The origin is the scheme, with the authority behind a double slash if there is one. -/
def splitOrigin (text : List Char) : List Char × List Char :=
  match splitScheme? text with
  | none => ([], text)
  | some (scheme, '/' :: '/' :: rest) =>
    (scheme ++ '/' :: '/' :: rest.takeWhile (· != '/'), rest.dropWhile (· != '/'))
  | some (scheme, rest) => (scheme, rest)

def origin (text : List Char) : List Char := (splitOrigin text).1

/-- The texts between slashes, one more than there are slashes. -/
def segments : List Char → List (List Char)
  | [] => [[]]
  | c :: cs =>
    if c = '/' then [] :: segments cs
    else
      match segments cs with
      | [] => [[c]]
      | first :: rest => (c :: first) :: rest

theorem segments_ne_nil (path : List Char) : segments path ≠ [] := by
  cases path with
  | nil => simp [segments]
  | cons c cs =>
    rw [segments]
    split
    · simp
    · split <;> simp

/-- Segments put together again with slashes between them give the path. -/
theorem intercalate_segments (path : List Char) : ['/'].intercalate (segments path) = path := by
  induction path with
  | nil => simp [segments]
  | cons c cs ih =>
    rw [segments]
    cases h : segments cs with
    | nil => exact absurd h (segments_ne_nil cs)
    | cons first rest =>
      rw [h] at ih
      by_cases hc : c = '/'
      · subst hc
        rw [if_pos rfl, List.intercalate_cons_cons]
        simp [ih]
      · rw [if_neg hc, ← ih]
        cases rest <;> simp

theorem not_mem_of_mem_segments {path segment : List Char} (h : segment ∈ segments path) :
    '/' ∉ segment := by
  induction path generalizing segment with
  | nil => simp_all [segments]
  | cons c cs ih =>
    rw [segments] at h
    split at h
    · rcases List.mem_cons.mp h with rfl | h
      · simp
      · exact ih h
    · rename_i hc
      split at h
      · rw [List.mem_singleton.mp h, List.mem_singleton]
        exact fun e => hc e.symm
      · rename_i first rest hs
        rcases List.mem_cons.mp h with rfl | h
        · rw [List.mem_cons, not_or]
          exact ⟨fun e => hc e.symm, ih (hs ▸ List.mem_cons_self)⟩
        · exact ih (hs ▸ List.mem_cons_of_mem _ h)

/-- The segment that stays where it is. -/
def here : List Char := ['.']

/-- The segment that leads one level up. -/
def up : List Char := ['.', '.']

/-- One level up from the kept segments, innermost first. An absolute path stays at its root; a
relative one remembers how far above its start it is. -/
def climb (absolute : Bool) : List (List Char) → List (List Char)
  | [] => if absolute then [] else [up]
  | last :: rest =>
    if last = up then (if absolute then last :: rest else up :: last :: rest) else rest

/-- The kept segments, innermost first, and whether the path ends at a directory. -/
structure Walk where
  kept : List (List Char)
  atDirectory : Bool

/-- A named segment ends at a directory if the whole path ends in a slash. -/
def Walk.step (absolute slashAtEnd : Bool) (w : Walk) (segment : List Char) : Walk :=
  if segment = [] then w
  else if segment = here then { w with atDirectory := true }
  else if segment = up then ⟨climb absolute w.kept, true⟩
  else ⟨segment :: w.kept, slashAtEnd⟩

def isAbsolute (path : List Char) : Bool := path.head? == some '/'

def endsInSlash (path : List Char) : Bool := path.getLast? == some '/'

def walk (path : List Char) : Walk :=
  (segments path).foldl (Walk.step (isAbsolute path) (endsInSlash path)) ⟨[], endsInSlash path⟩

/-- The path of a walk written out. -/
def Walk.path (absolute : Bool) (w : Walk) : List Char :=
  (if absolute then ['/'] else []) ++ ['/'].intercalate w.kept.reverse ++
    (if w.atDirectory && !w.kept.isEmpty then ['/'] else [])

/-- The origin stays; the path is walked and written out again. -/
def normalize (text : List Char) : List Char :=
  let (origin, path) := splitOrigin text
  origin ++ (walk path).path (isAbsolute path)

/-- `.`, `..` and what starts with them as a segment. -/
def isRelative (id : List Char) : Bool :=
  id == here || id == up || ['.', '/'].isPrefixOf id || ['.', '.', '/'].isPrefixOf id

/-- Every text is its origin followed by its path. -/
theorem splitOrigin_append (text : List Char) :
    (splitOrigin text).1 ++ (splitOrigin text).2 = text := by
  have split : ∀ {scheme rest}, splitScheme? text = some (scheme, rest) →
      scheme ++ rest = text := by
    intro scheme rest h
    unfold splitScheme? at h
    have whole := List.takeWhile_append_dropWhile (p := (· != ':')) (l := text)
    split at h
    · simp at h
    · rename_i colon tail hd
      dsimp only at h
      split at h
      · obtain ⟨rfl, rfl⟩ := by simpa using h
        rw [hd] at whole
        simpa using whole
      · simp at h
  unfold splitOrigin
  split
  · rfl
  · rename_i scheme rest h
    simp [← split h, List.takeWhile_append_dropWhile]
  · rename_i scheme rest _ h
    exact split h

end ModuleLoader.Path
