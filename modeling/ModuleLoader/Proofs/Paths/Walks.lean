import ModuleLoader.Path
import Mathlib.Data.List.Infix

/-! What walking a path leaves of it. The kept segments lead up at first, if at all, and are names from there
on; and a path that is written out from them is walked again as it stands. -/
namespace ModuleLoader.Path

/-- A segment that stays in a path. -/
def IsName (segment : List Char) : Prop := segment ≠ [] ∧ segment ≠ here ∧ segment ≠ up ∧ '/' ∉ segment

/-- The kept segments, innermost first: names below some levels up. An absolute path has no levels up. -/
inductive Stack (absolute : Bool) : List (List Char) → Prop where
  | ups (levels : Nat) (rooted : absolute = true → levels = 0) : Stack absolute (List.replicate levels up)
  | name {segment : List Char} {kept : List (List Char)} (named : IsName segment) (below : Stack absolute kept) :
      Stack absolute (segment :: kept)

/-- A walk whose kept segments can be written out: a level up leads to a directory. -/
structure Walk.Settled (absolute : Bool) (w : Walk) : Prop where
  stack : Stack absolute w.kept
  directory : w.kept.head? = some up → w.atDirectory = true

variable {absolute slashAtEnd : Bool} {kept : List (List Char)}

theorem Stack.climb (stack : Stack absolute kept) : Stack absolute (climb absolute kept) := by
  cases stack with
  | ups levels rooted =>
    cases levels with
    | zero =>
      cases absolute with
      | true => exact .ups 0 fun _ => rfl
      | false => exact .ups 1 (Bool.noConfusion ·)
    | succ levels =>
      cases absolute with
      | true => cases rooted rfl
      | false => exact .ups (levels + 2) (Bool.noConfusion ·)
  | name named below =>
    rw [Path.climb, if_neg named.2.2.1]
    exact below

theorem Walk.Settled.step {w : Walk} (settled : w.Settled absolute) {segment : List Char}
    (plain : '/' ∉ segment) : (w.step absolute slashAtEnd segment).Settled absolute := by
  unfold Walk.step
  split
  · exact settled
  · rename_i filled
    split
    · exact ⟨settled.stack, fun _ => rfl⟩
    · rename_i away
      split
      · exact ⟨settled.stack.climb, fun _ => rfl⟩
      · rename_i named
        exact ⟨.name ⟨filled, away, named, plain⟩ settled.stack, fun same => absurd (Option.some.inj same) named⟩

/-- Walking any path ends in segments that can be written out. -/
theorem walk_settled (path : List Char) : (walk path).Settled (isAbsolute path) := by
  refine List.foldlRecOn _ _ ⟨.ups 0 fun _ => rfl, fun none => by cases none⟩ fun w settled s member => ?_
  exact settled.step (not_mem_of_mem_segments member)

/-! Walking the kept segments. -/

@[simp] theorem Walk.step_up (w : Walk) : w.step absolute slashAtEnd up = ⟨climb absolute w.kept, true⟩ := rfl

@[simp] theorem Walk.step_empty (w : Walk) : w.step absolute slashAtEnd [] = w := rfl

@[simp] theorem Walk.step_here (w : Walk) : w.step absolute slashAtEnd here = ⟨w.kept, true⟩ := rfl

theorem Walk.step_name {segment : List Char} (named : IsName segment) (w : Walk) :
    w.step absolute slashAtEnd segment = ⟨segment :: w.kept, slashAtEnd⟩ := by
  rw [step, if_neg named.1, if_neg named.2.1, if_neg named.2.2.1]

theorem climb_replicate (levels : Nat) : climb false (List.replicate levels up) = List.replicate (levels + 1) up := by
  cases levels <;> rfl

theorem Stack.refold (stack : Stack absolute kept) (slashAtEnd : Bool) :
    kept.reverse.foldl (Walk.step absolute slashAtEnd) ⟨[], slashAtEnd⟩ =
      ⟨kept, slashAtEnd || kept.head? == some up⟩ := by
  induction stack with
  | ups levels rooted =>
    rw [List.reverse_replicate]
    induction levels with
    | zero => simp
    | succ levels ih =>
      have relative : absolute = false := by
        cases absolute with
        | true => cases rooted rfl
        | false => rfl
      subst relative
      rw [List.replicate_succ', List.foldl_append, ih (Bool.noConfusion ·), List.foldl_cons, List.foldl_nil,
        Walk.step_up, climb_replicate, ← List.replicate_succ']
      simp [List.replicate_succ]
  | name named below ih =>
    rw [List.reverse_cons, List.foldl_append, ih, List.foldl_cons, List.foldl_nil, Walk.step_name named]
    simp [named.2.2.1]

/-! The segments of a path that is written out. -/

theorem segments_of_not_mem {text : List Char} (plain : '/' ∉ text) : segments text = [text] := by
  induction text with
  | nil => rfl
  | cons c text ih =>
    rw [List.mem_cons, not_or] at plain
    rw [segments, if_neg (Ne.symm plain.1), ih plain.2]

/-- A slash separates the segments on its two sides. -/
theorem segments_append (left right : List Char) :
    segments (left ++ '/' :: right) = segments left ++ segments right := by
  induction left with
  | nil => rw [List.nil_append, segments, segments, if_pos rfl, List.singleton_append]
  | cons c left ih =>
    rw [List.cons_append, segments, segments]
    split
    · rw [ih]; rfl
    · rw [ih]
      cases split : segments left with
      | nil => exact absurd split (segments_ne_nil left)
      | cons first rest => rfl

theorem segments_intercalate {list : List (List Char)} (filled : list ≠ []) (plain : ∀ s ∈ list, '/' ∉ s) :
    segments (['/'].intercalate list) = list := by
  induction list with
  | nil => exact absurd rfl filled
  | cons s list ih =>
    have first := plain s (List.mem_cons_self ..)
    cases list with
    | nil => simpa using segments_of_not_mem first
    | cons t list =>
      have later := ih (List.cons_ne_nil t list) fun u member => plain u (List.mem_cons_of_mem _ member)
      rw [List.intercalate_cons_cons, List.append_assoc, List.singleton_append, segments_append,
        segments_of_not_mem first, later, List.singleton_append]

/-! A path that is written out. -/

theorem Stack.not_mem_slash (stack : Stack absolute kept) : ∀ s ∈ kept, s ≠ [] ∧ '/' ∉ s := by
  induction stack with
  | ups levels =>
    intro s member
    rw [List.eq_of_mem_replicate member]
    decide
  | name named below ih =>
    intro s member
    rcases List.mem_cons.mp member with rfl | member
    · exact ⟨named.1, named.2.2.2⟩
    · exact ih s member

theorem Walk.path_of_empty {w : Walk} (empty : w.kept = []) :
    w.path absolute = if absolute then ['/'] else [] := by
  rw [path, empty]
  simp

/-- The segments of a path that is written out are the kept ones, between those that its first and its last
slash make. -/
theorem Walk.segments_path {w : Walk} (stack : Stack absolute w.kept) (filled : w.kept ≠ []) :
    segments (w.path absolute) =
      (if absolute then [[]] else []) ++ w.kept.reverse ++ (if w.atDirectory then [[]] else []) := by
  have inner : segments (['/'].intercalate w.kept.reverse) = w.kept.reverse :=
    segments_intercalate (by simpa using filled) fun s member =>
      (stack.not_mem_slash s (List.mem_reverse.mp member)).2
  have empty : w.kept.isEmpty = false := by simpa using filled
  have lead (rest : List Char) :
      segments ((if absolute then ['/'] else []) ++ rest) = (if absolute then [[]] else []) ++ segments rest := by
    cases absolute with
    | true => exact segments_append [] rest
    | false => rfl
  have trail (rest : List Char) : segments (rest ++ (if w.atDirectory then ['/'] else [])) =
      segments rest ++ (if w.atDirectory then [[]] else []) := by
    cases w.atDirectory with
    | true => exact segments_append rest []
    | false => simp
  rw [path, empty, Bool.not_false, Bool.and_true, List.append_assoc, lead, trail, inner, List.append_assoc]

theorem isAbsolute_intercalate {list : List (List Char)} (inner : ∀ s ∈ list, s ≠ [] ∧ '/' ∉ s) (filled : list ≠ [])
    (rest : List Char) : isAbsolute (['/'].intercalate list ++ rest) = false := by
  cases list with
  | nil => exact absurd rfl filled
  | cons s list =>
    obtain ⟨first, plain⟩ := inner s (List.mem_cons_self ..)
    cases s with
    | nil => exact absurd rfl first
    | cons c s =>
      have other : c ≠ '/' := fun same => plain (same ▸ List.mem_cons_self ..)
      cases list <;> simp [isAbsolute, List.intercalate_cons_cons, other]

theorem Walk.isAbsolute_path {w : Walk} (stack : Stack absolute w.kept) : isAbsolute (w.path absolute) = absolute := by
  by_cases filled : w.kept = []
  · rw [path_of_empty filled]
    cases absolute <;> rfl
  · cases absolute with
    | true => rfl
    | false =>
      exact isAbsolute_intercalate (fun s member => stack.not_mem_slash s (List.mem_reverse.mp member))
        (by simpa using filled) _

/-- What comes last in a path is the end of its last segment. -/
theorem exists_intercalate_append (list : List (List Char)) (s : List Char) :
    ∃ before, ['/'].intercalate (list ++ [s]) = before ++ s := by
  induction list with
  | nil => exact ⟨[], by simp⟩
  | cons t list ih =>
    obtain ⟨before, written⟩ := ih
    cases list with
    | nil => exact ⟨t ++ ['/'], by simp⟩
    | cons u list =>
      rw [List.cons_append] at written
      exact ⟨t ++ '/' :: before, by simp [List.intercalate_cons_cons, written]⟩

/-- Where no slash marks it as a directory, a path ends like its innermost segment. -/
theorem Walk.exists_path_append {w : Walk} {s : List Char} {kept : List (List Char)} (innermost : w.kept = s :: kept)
    (absolute : Bool) :
    ∃ before, w.path absolute = before ++ s ++ (if w.atDirectory then ['/'] else []) := by
  obtain ⟨before, written⟩ := exists_intercalate_append kept.reverse s
  refine ⟨(if absolute then ['/'] else []) ++ before, ?_⟩
  rw [path, innermost, List.reverse_cons, written]
  simp

theorem endsInSlash_append {s : List Char} (filled : s ≠ []) (before : List Char) :
    endsInSlash (before ++ s) = endsInSlash s := by
  rw [endsInSlash, endsInSlash, List.getLast?_append_of_ne_nil _ filled]

theorem endsInSlash_append_singleton (text : List Char) (c : Char) : endsInSlash (text ++ [c]) = (c == '/') := by
  simp [endsInSlash]

theorem endsInSlash_of_not_mem {s : List Char} (plain : '/' ∉ s) : endsInSlash s = false := by
  rw [endsInSlash, beq_eq_false_iff_ne]
  exact fun last => plain (List.mem_of_getLast? last)

theorem Walk.endsInSlash_path {w : Walk} (stack : Stack absolute w.kept) :
    endsInSlash (w.path absolute) = if w.kept = [] then absolute else w.atDirectory := by
  split
  · rename_i empty
    rw [path_of_empty empty]
    cases absolute <;> rfl
  · rename_i filled
    obtain ⟨s, kept, innermost⟩ := List.exists_cons_of_ne_nil filled
    obtain ⟨before, written⟩ := w.exists_path_append innermost absolute
    obtain ⟨named, plain⟩ := stack.not_mem_slash s (innermost ▸ List.mem_cons_self ..)
    rw [written]
    cases w.atDirectory with
    | true => exact endsInSlash_append (List.cons_ne_nil '/' []) _
    | false =>
      rw [if_neg Bool.false_ne_true, List.append_nil, endsInSlash_append named]
      exact endsInSlash_of_not_mem plain

theorem foldl_step_trail (w : Walk) (marked : Bool) :
    (if marked then [[]] else []).foldl (Walk.step absolute slashAtEnd) w = w := by
  cases marked <;> rfl

/-- A path that has been written out from a walk is walked in the same way. -/
theorem Walk.Settled.walk_path {w : Walk} (settled : w.Settled absolute) :
    walk (w.path absolute) = if w.kept = [] then ⟨[], absolute⟩ else w := by
  rw [walk, isAbsolute_path settled.stack, endsInSlash_path settled.stack]
  split
  · rename_i empty
    rw [path_of_empty empty]
    cases absolute <;> rfl
  · rename_i filled
    rw [segments_path settled.stack filled, List.foldl_append, List.foldl_append, foldl_step_trail, foldl_step_trail,
      settled.stack.refold]
    obtain ⟨kept, atDirectory⟩ := w
    cases atDirectory with
    | true => rfl
    | false =>
      have inside : (kept.head? == some up) = false := by
        rw [beq_eq_false_iff_ne]
        exact fun climbs => Bool.false_ne_true (settled.directory climbs)
      rw [inside]
      rfl

/-- A path with its dot segments resolved and its slashes collapsed. -/
def tidy (path : List Char) : List Char := (walk path).path (isAbsolute path)

theorem isAbsolute_tidy (path : List Char) : isAbsolute (tidy path) = isAbsolute path :=
  Walk.isAbsolute_path (walk_settled path).stack

theorem tidy_ne_nil {path : List Char} (absolute : isAbsolute path = true) : tidy path ≠ [] := by
  intro empty
  rw [← isAbsolute_tidy, empty] at absolute
  cases absolute

theorem tidy_tidy (path : List Char) : tidy (tidy path) = tidy path := by
  have settled := walk_settled path
  rw [tidy, isAbsolute_tidy]
  unfold tidy
  rw [settled.walk_path]
  split
  · rename_i empty
    rw [Walk.path_of_empty empty, Walk.path_of_empty rfl]
  · rfl

/-! No two slashes follow each other in a path that has been tidied. -/

theorem infix_append_iff {s : List Char} (plain : '/' ∉ s) (rest : List Char) :
    ['/', '/'] <:+: s ++ rest ↔ ['/', '/'] <:+: rest := by
  induction s with
  | nil => rfl
  | cons c s ih =>
    rw [List.mem_cons, not_or] at plain
    have apart : ¬ ['/', '/'] <+: c :: (s ++ rest) := fun begins => plain.1 (List.cons_prefix_cons.mp begins).1
    rw [List.cons_append, List.infix_cons_iff, ih plain.2, or_iff_right apart]

theorem infix_slash_append_iff {s : List Char} (filled : s ≠ []) (plain : '/' ∉ s) (rest : List Char) :
    ['/', '/'] <:+: '/' :: (s ++ rest) ↔ ['/', '/'] <:+: rest := by
  rw [List.infix_cons_iff, infix_append_iff plain]
  refine or_iff_right fun begins => ?_
  obtain ⟨c, s, rfl⟩ := List.exists_cons_of_ne_nil filled
  have second := (List.cons_prefix_cons.mp begins).2
  exact plain ((List.cons_prefix_cons.mp second).1 ▸ List.mem_cons_self ..)

theorem single_intercalate {list : List (List Char)} (inner : ∀ s ∈ list, s ≠ [] ∧ '/' ∉ s) (filled : list ≠ []) :
    ¬ ['/', '/'] <:+: '/' :: (['/'].intercalate list ++ ['/']) := by
  induction list with
  | nil => exact absurd rfl filled
  | cons s list ih =>
    obtain ⟨first, plain⟩ := inner s (List.mem_cons_self ..)
    cases list with
    | nil =>
      rw [List.intercalate_singleton, infix_slash_append_iff first plain]
      exact fun both => absurd both.length_le (by simp)
    | cons t list =>
      rw [List.intercalate_cons_cons, List.append_assoc, List.append_assoc, infix_slash_append_iff first plain]
      exact ih (fun u member => inner u (List.mem_cons_of_mem _ member)) (List.cons_ne_nil t list)

theorem single_tidy (path : List Char) : ¬ ['/', '/'] <:+: tidy path := by
  have stack := (walk_settled path).stack
  by_cases empty : (walk path).kept = []
  · rw [tidy, Walk.path_of_empty empty]
    intro both
    have := both.length_le
    split at this <;> simp at this
  · have single := single_intercalate (fun s member => stack.not_mem_slash s (List.mem_reverse.mp member))
      (List.reverse_ne_nil_iff.mpr empty)
    refine fun both => single (both.trans ?_)
    have filled : (walk path).kept.isEmpty = false := by simpa using empty
    rw [tidy, Walk.path, filled, Bool.not_false, Bool.and_true]
    refine ⟨if isAbsolute path then [] else ['/'], if (walk path).atDirectory then [] else ['/'], ?_⟩
    cases isAbsolute path <;> cases (walk path).atDirectory <;> simp

/-! What comes last in a path stays there, if it is no slash. -/

theorem segments_append_singleton {c : Char} (other : c ≠ '/') (path : List Char) :
    ∃ list s, segments (path ++ [c]) = list ++ [s ++ [c]] := by
  induction path with
  | nil => exact ⟨[], [], by simp [segments, other]⟩
  | cons d path ih =>
    obtain ⟨list, s, split⟩ := ih
    rw [List.cons_append, segments, split]
    by_cases slash : d = '/'
    · exact ⟨[] :: list, s, by simp [slash]⟩
    · cases list with
      | nil => exact ⟨[], d :: s, by simp [slash]⟩
      | cons t list => exact ⟨(d :: t) :: list, s, by simp [slash]⟩

theorem Walk.step_atDirectory {w : Walk} (directory : w.atDirectory = true) (segment : List Char) :
    (w.step absolute true segment).atDirectory = true := by
  unfold Walk.step
  split
  · exact directory
  · split
    · rfl
    · split <;> rfl

theorem atDirectory_of_endsInSlash {path : List Char} (slash : endsInSlash path = true) :
    (walk path).atDirectory = true := by
  rw [walk, slash]
  exact List.foldlRecOn (motive := fun w : Walk => w.atDirectory = true) _ _ rfl
    fun w directory s _ => w.step_atDirectory directory s

/-- A walk that does not end at a directory ends with the name that the path ends with. -/
theorem walk_append_singleton {c : Char} (other : c ≠ '/') (path : List Char) :
    (walk (path ++ [c])).atDirectory = true ∨ ∃ s kept, (walk (path ++ [c])).kept = (s ++ [c]) :: kept := by
  obtain ⟨list, s, split⟩ := segments_append_singleton other path
  rw [walk, split, List.foldl_append, List.foldl_cons, List.foldl_nil]
  by_cases away : s ++ [c] = here
  · rw [away]
    exact .inl rfl
  · by_cases named : s ++ [c] = up
    · rw [named]
      exact .inl rfl
    · right
      rw [Walk.step, if_neg (by simp), if_neg away, if_neg named]
      exact ⟨s, _, rfl⟩

/-- A path that is not empty after it has been tidied ends in a slash or as it did before. -/
theorem getLast?_tidy {path : List Char} {last : Char} (ends : path.getLast? = some last) :
    ∀ c ∈ (tidy path).getLast?, c = '/' ∨ c = last := by
  intro c tidied
  by_cases empty : (walk path).kept = []
  · rw [tidy, Walk.path_of_empty empty] at tidied
    left
    split at tidied
    · exact (Option.some.inj tidied).symm
    · cases tidied
  · obtain ⟨s, kept, innermost⟩ := List.exists_cons_of_ne_nil empty
    obtain ⟨before, written⟩ := (walk path).exists_path_append innermost (isAbsolute path)
    rw [tidy, written] at tidied
    cases directory : (walk path).atDirectory with
    | true =>
      rw [directory, if_pos rfl, List.getLast?_append_of_ne_nil _ (List.cons_ne_nil '/' [])] at tidied
      exact .inl (Option.some.inj tidied).symm
    | false =>
      obtain ⟨path, rfl⟩ := List.getLast?_eq_some_iff.mp ends
      have other : last ≠ '/' := by
        rintro rfl
        have slash := endsInSlash_append_singleton path '/'
        rw [beq_self_eq_true] at slash
        rw [atDirectory_of_endsInSlash slash] at directory
        cases directory
      obtain there | ⟨s', kept', same⟩ := walk_append_singleton other path
      · rw [there] at directory
        cases directory
      · obtain ⟨rfl, -⟩ := List.cons.inj (innermost.symm.trans same)
        simp_all

end ModuleLoader.Path
