import ModuleLoader.Proofs.Paths.Staying

/-! Paths below a directory. A path that is put behind a directory is walked on from where the directory leads, so it
does not matter whether the directory has been normalized before. -/
namespace ModuleLoader

namespace Path

variable {absolute slashAtEnd : Bool}

/-! What a walk keeps does not depend on whether it is at a directory, and whether it is at one is said anew by the
first segment that is not empty. -/

theorem Walk.kept_step {w w' : Walk} (same : w.kept = w'.kept) (slashAtEnd' : Bool) (segment : List Char) :
    (w.step absolute slashAtEnd segment).kept = (w'.step absolute slashAtEnd' segment).kept := by
  unfold Walk.step
  split
  · exact same
  · split
    · exact same
    · split <;> rw [same]

theorem kept_foldl {w w' : Walk} (same : w.kept = w'.kept) (slashAtEnd' : Bool) (list : List (List Char)) :
    (list.foldl (Walk.step absolute slashAtEnd) w).kept = (list.foldl (Walk.step absolute slashAtEnd') w').kept := by
  induction list generalizing w w' with
  | nil => exact same
  | cons s list ih => exact ih (Walk.kept_step same slashAtEnd' s)

theorem Walk.step_filled {w w' : Walk} (same : w.kept = w'.kept) {segment : List Char} (filled : segment ≠ []) :
    w.step absolute slashAtEnd segment = w'.step absolute slashAtEnd segment := by
  rw [Walk.step, Walk.step, if_neg filled, if_neg filled, same]

theorem foldl_filled {w w' : Walk} (same : w.kept = w'.kept) {path : List Char} (filled : path ≠ [])
    (relative : isAbsolute path = false) :
    (segments path).foldl (Walk.step absolute slashAtEnd) w =
      (segments path).foldl (Walk.step absolute slashAtEnd) w' := by
  obtain ⟨c, path, rfl⟩ := List.exists_cons_of_ne_nil filled
  have other : c ≠ '/' := by simpa [isAbsolute] using relative
  rw [segments, if_neg other]
  split <;> rw [List.foldl_cons, List.foldl_cons, Walk.step_filled same (List.cons_ne_nil c _)]

/-! Walking on from a directory. -/

/-- Empty, or with a slash at its end. -/
def IsDirectory (path : List Char) : Prop := ∀ c ∈ path.getLast?, c = '/'

theorem isDirectory_append (before : List Char) : IsDirectory (before ++ ['/']) := by
  intro c last
  simpa using last.symm

theorem IsDirectory.tidy {directory : List Char} (ends : IsDirectory directory) : IsDirectory (tidy directory) := by
  intro c last
  cases ended : directory.getLast? with
  | none =>
    obtain rfl := List.getLast?_eq_none_iff.mp ended
    cases last
  | some d =>
    obtain rfl := ends d ended
    exact (getLast?_tidy ended c last).elim id id

theorem isAbsolute_append {path : List Char} (relative : isAbsolute path = false) (directory : List Char) :
    isAbsolute (directory ++ path) = isAbsolute directory := by
  cases directory with
  | nil => exact relative
  | cons c directory => rfl

/-- A relative path below a directory is walked from what the directory keeps. -/
theorem walk_append {directory path : List Char} (ends : IsDirectory directory) (filled : path ≠ [])
    (relative : isAbsolute path = false) :
    walk (directory ++ path) =
      (segments path).foldl (Walk.step (isAbsolute directory) (endsInSlash path)) ⟨(walk directory).kept, true⟩ := by
  rw [walk, isAbsolute_append relative, endsInSlash_append filled]
  rcases List.eq_nil_or_concat' directory with rfl | ⟨before, c, rfl⟩
  · exact foldl_filled (by rfl) filled relative
  · obtain rfl : c = '/' := ends c (by simp)
    rw [List.append_assoc, List.singleton_append, segments_append, List.foldl_append]
    refine foldl_filled ?_ filled relative
    rw [walk, segments_append, List.foldl_append, segments, List.foldl_cons, List.foldl_nil, Walk.step_empty]
    exact kept_foldl (by rfl) _ _

theorem kept_tidy (path : List Char) : (walk (tidy path)).kept = (walk path).kept := by
  have settled := walk_settled path
  rw [tidy, settled.walk_path]
  split
  · rename_i empty
    exact empty.symm
  · rfl

theorem tidy_append {directory path : List Char} (ends : IsDirectory directory) (relative : isAbsolute path = false) :
    tidy (tidy directory ++ path) = tidy (directory ++ path) := by
  by_cases empty : path = []
  · rw [empty, List.append_nil, List.append_nil, tidy_tidy]
  · have same : walk (tidy directory ++ path) = walk (directory ++ path) := by
      rw [walk_append ends.tidy empty relative, walk_append ends empty relative, kept_tidy, isAbsolute_tidy]
    rw [tidy, same, isAbsolute_append relative, isAbsolute_tidy, ← isAbsolute_append relative directory]
    rfl

/-! Behind an origin. -/

theorem Schemed.append {text : List Char} (schemed : Schemed text) (more : List Char) : Schemed (text ++ more) := by
  obtain ⟨name, rest, valid, rfl⟩ := schemed_iff.mp schemed
  exact schemed_iff.mpr ⟨name, rest ++ more, valid, by simp⟩

/-- Behind an authority a slash is left of the path, so what follows it is not taken for a part of the authority. -/
theorem Leads.tidy_append {origin path : List Char} (leads : Leads origin path) (filled : path ≠ [])
    {more : List Char} (relative : isAbsolute more = false) : Leads origin (Path.tidy path ++ more) := by
  by_cases empty : Path.tidy path = []
  · rw [empty, List.nil_append]
    cases leads with
    | scheme valid =>
      refine .scheme valid ?_
      rintro ⟨rest, rfl⟩
      cases relative
    | authority valid inside stops =>
      obtain ⟨c, path, rfl⟩ := List.exists_cons_of_ne_nil filled
      obtain rfl := stops c rfl
      exact absurd empty (tidy_ne_nil rfl)
  · exact leads.tidy.append empty (by simpa [isAbsolute] using relative)

theorem normalize_append {directory path : List Char} (schemed : Schemed directory) (ends : IsDirectory directory)
    (relative : isAbsolute path = false) : normalize (normalize directory ++ path) = normalize (directory ++ path) := by
  have leads := leads_splitOrigin schemed
  have written := splitOrigin_append directory
  generalize (splitOrigin directory).1 = origin at leads written
  generalize (splitOrigin directory).2 = rest at leads written
  subst written
  rw [normalize_of_leads leads]
  by_cases bare : rest = []
  · rw [bare]
    rfl
  · have below : IsDirectory rest := fun c last => ends c (by rwa [List.getLast?_append_of_ne_nil _ bare])
    rw [List.append_assoc, List.append_assoc, normalize_of_leads (leads.tidy_append bare relative),
      normalize_of_leads (leads.append bare (by simpa [isAbsolute] using relative)), Path.tidy_append below relative]

end Path

namespace Config

open ModuleLoader.Path

theorem resolve_congr {config config' : Config} {referrer referrer' : Option Locator} (id : String)
    (substitutes : config.substitutes = config'.substitutes)
    (joined : ∀ text, normalize (config.joined text (referrer.getD config.root)) =
      normalize (config'.joined text (referrer'.getD config'.root))) :
    config.resolve id referrer = config'.resolve id referrer' := by
  unfold resolve
  dsimp only
  rw [substitutes, joined]

theorem joined_base (config : Config) {directory : List Char} (schemed : Schemed directory)
    (ends : IsDirectory directory) (text : List Char) (referrer : Locator) :
    Path.normalize ({ config with base := String.ofList (Path.normalize directory) }.joined text referrer) =
      Path.normalize ({ config with base := String.ofList directory }.joined text referrer) := by
  unfold joined
  split
  · rfl
  · split
    · rfl
    · dsimp only
      rw [String.toList_ofList, String.toList_ofList, origin_normalize schemed]
      split
      · rfl
      · exact normalize_append schemed ends (by simp_all)

theorem joined_referrer (config : Config) {referrer referrer' : Locator}
    (schemed : Schemed referrer.directory.toList) (ends : IsDirectory referrer.directory.toList)
    (canonical : referrer'.directory.toList = normalize referrer.directory.toList) (text : List Char) :
    normalize (config.joined text referrer') = normalize (config.joined text referrer) := by
  unfold joined
  split
  · rfl
  · split
    · rename_i relative
      rw [canonical]
      exact normalize_append schemed ends (by rw [isAbsolute, head?_of_isRelative relative]; rfl)
    · rfl

/-- Below a directory with a scheme and below its canonical form a path that does not begin with a slash leads to the
same place. So it makes no difference to what identifiers are resolved to whether the base is normalized, or the
directory of the referrer. -/
theorem resolved_below_canonical (s : List Char) (schemed : Schemed s) :
    (∀ t, isAbsolute t = false → normalize (normalize (s ++ ['/']) ++ t) = normalize (s ++ '/' :: t)) ∧
    (∀ (config : Config) (id : String) (referrer : Option Locator),
      { config with base := String.ofList (normalize (s ++ ['/'])) }.resolve id referrer =
        { config with base := String.ofList (s ++ ['/']) }.resolve id referrer) ∧
    ∀ (config : Config) (id : String) (referrer canonical : Locator), referrer.directory.toList = s ++ ['/'] →
      canonical.directory.toList = normalize (s ++ ['/']) →
      config.resolve id (some canonical) = config.resolve id (some referrer) := by
  have longer : Schemed (s ++ ['/']) := schemed.append ['/']
  have ends := isDirectory_append s
  refine ⟨fun t relative => ?_, fun config id referrer => ?_, fun config id referrer canonical same normal => ?_⟩
  · rw [normalize_append longer ends relative, List.append_assoc, List.singleton_append]
  · exact resolve_congr id rfl fun text => config.joined_base longer ends text _
  · rw [← same] at longer ends normal
    exact resolve_congr id rfl fun text => config.joined_referrer longer ends normal text

/-- Of the one directory nothing is left but the scheme, and the other one winds. -/
theorem resolved_below_canonical_climbing :
    let s := "mem:a/..".toList
    let s' := "page:/a//./b/..".toList
    let t := "../x//".toList
    let referrer : Locator := ⟨"page:/a//./b/../main"⟩
    let canonical : Locator := ⟨"page:/a/main"⟩
    (Schemed s ∧ isAbsolute t = false ∧ normalize (s ++ ['/']) = "mem:".toList) ∧
    normalize (normalize (s ++ ['/']) ++ t) = normalize (s ++ '/' :: t) ∧
    Config.resolve { base := "mem:" } "b/../../x" none = Config.resolve { base := "mem:a/../" } "b/../../x" none ∧
    (Schemed s' ∧ referrer.directory.toList = s' ++ ['/'] ∧ canonical.directory.toList = normalize (s' ++ ['/'])) ∧
    Config.resolve {} "../x" (some canonical) = Config.resolve {} "../x" (some referrer) := by
  intro s s' t referrer canonical
  have climbing : Schemed s ∧ isAbsolute t = false ∧ normalize (s ++ ['/']) = "mem:".toList := by decide +kernel
  have winding : Schemed s' ∧ referrer.directory.toList = s' ++ ['/'] ∧
      canonical.directory.toList = normalize (s' ++ ['/']) := by decide +kernel
  obtain ⟨below, based, -⟩ := resolved_below_canonical s climbing.1
  obtain ⟨-, -, asked⟩ := resolved_below_canonical s' winding.1
  refine ⟨climbing, below t climbing.2.1, ?_, winding, asked {} "../x" referrer canonical winding.2.1 winding.2.2⟩
  have same := based {} "b/../../x" none
  rw [climbing.2.2] at same
  exact same

end Config

end ModuleLoader
