import ModuleLoader.Proofs.Paths

/-! Where identifiers without a scheme of their own lead. They are put behind a directory, an origin or the
base as mere text, and the text is split again into an origin and a path. It stays at the origin that it was
put behind as long as what comes first in the identifier cannot be taken for a part of the origin. -/
namespace ModuleLoader

namespace Path

theorem origin_normalize {text : List Char} (schemed : Schemed text) : origin (normalize text) = origin text :=
  (leads_splitOrigin schemed).tidy.origin

theorem origin_begins (text : List Char) : origin text <+: text := ⟨_, splitOrigin_append text⟩

/-- The part of a text up to and including its last slash. -/
def directory (text : List Char) : List Char := (text.reverse.dropWhile (· != '/')).reverse

theorem dropWhile_ne_nil {path : List Char} (member : '/' ∈ path) : path.reverse.dropWhile (· != '/') ≠ [] := by
  rw [ne_eq, List.dropWhile_eq_nil_iff]
  exact fun none => by simpa using none '/' (List.mem_reverse.mpr member)

theorem directory_ne_nil {path : List Char} (member : '/' ∈ path) : directory path ≠ [] :=
  List.reverse_ne_nil_iff.mpr (dropWhile_ne_nil member)

theorem directory_append {path : List Char} (member : '/' ∈ path) (before : List Char) :
    directory (before ++ path) = before ++ directory path := by
  rw [directory, List.reverse_append, List.dropWhile_append,
    List.isEmpty_eq_false_iff.mpr (dropWhile_ne_nil member)]
  simp [directory]

theorem directory_append_of_not_mem {path : List Char} (plain : '/' ∉ path) (before : List Char) :
    directory (before ++ path) = directory before := by
  have each : ∀ c ∈ path.reverse, (c != '/') = true := fun c member =>
    bne_iff_ne.mpr fun same => plain (same ▸ List.mem_reverse.mp member)
  rw [directory, List.reverse_append, List.dropWhile_append_of_pos each, directory]

theorem directory_of_not_mem {path : List Char} (plain : '/' ∉ path) : directory path = [] :=
  directory_append_of_not_mem plain []

theorem directory_begins (text : List Char) : directory text <+: text := by
  rw [← List.reverse_suffix, directory, List.reverse_reverse]
  exact List.dropWhile_suffix _

/-! Origins in front of longer paths. -/

theorem Leads.shortened {origin path shorter : List Char} (leads : Leads origin path) (begins : shorter <+: path) :
    Leads origin shorter := by
  cases leads with
  | scheme valid single => exact .scheme valid fun double => single (double.trans begins)
  | authority valid inside stops =>
    refine .authority valid inside fun c first => stops c ?_
    obtain ⟨rest, rfl⟩ := begins
    cases shorter with
    | nil => cases first
    | cons d shorter => exact first

/-- A path may go on, unless its slash makes two with the next one. -/
theorem Leads.append {origin path : List Char} (leads : Leads origin path) (filled : path ≠ []) {more : List Char}
    (other : more.head? ≠ some '/') : Leads origin (path ++ more) := by
  obtain ⟨c, path, rfl⟩ := List.exists_cons_of_ne_nil filled
  cases leads with
  | scheme valid single =>
    refine .scheme valid fun double => single ?_
    cases path with
    | nil =>
      have second := (List.cons_prefix_cons.mp double).2
      obtain ⟨rest, rfl⟩ := second
      exact absurd rfl other
    | cons d path =>
      obtain ⟨first, second⟩ := List.cons_prefix_cons.mp double
      exact List.cons_prefix_cons.mpr ⟨first, List.cons_prefix_cons.mpr
        ⟨(List.cons_prefix_cons.mp second).1, List.nil_prefix⟩⟩
  | authority valid inside stops => exact .authority valid inside stops

theorem splitOrigin_of_not_schemed {text : List Char} (bare : ¬ Schemed text) : splitOrigin text = ([], text) := by
  rw [Schemed, Bool.not_eq_true, Option.isSome_eq_false_iff, Option.isNone_iff_eq_none] at bare
  simp only [splitOrigin, bare]

theorem head?_of_isRelative {id : List Char} (relative : isRelative id = true) : id.head? = some '.' := by
  simp only [isRelative, Bool.or_eq_true, beq_iff_eq, List.isPrefixOf_iff_prefix] at relative
  rcases relative with ((rfl | rfl) | ⟨rest, rfl⟩) | ⟨rest, rfl⟩ <;> rfl

theorem slash_not_mem_scheme {name : List Char} (valid : isSchemeName name = true) : '/' ∉ name ++ [':'] := by
  intro member
  rcases List.mem_append.mp member with member | member
  · exact (mem_schemeName valid member).2 rfl
  · exact absurd (List.mem_singleton.mp member) (by decide)

/-- Behind two slashes the text up to the next slash is an authority. -/
theorem origin_doubled {name : List Char} (valid : isSchemeName name = true) (rest : List Char) :
    origin (normalize (name ++ ':' :: '/' :: '/' :: rest)) =
      name ++ ':' :: '/' :: '/' :: rest.takeWhile (· != '/') := by
  have leads : Leads (name ++ ':' :: '/' :: '/' :: rest.takeWhile (· != '/')) (rest.dropWhile (· != '/')) :=
    .authority valid (Text.not_mem_takeWhile_ne '/' rest) (Text.head?_dropWhile_ne '/' rest)
  have whole : name ++ ':' :: '/' :: '/' :: rest =
      (name ++ ':' :: '/' :: '/' :: rest.takeWhile (· != '/')) ++ rest.dropWhile (· != '/') := by simp
  rw [whole, origin_normalize leads.schemed, leads.origin]

/-! Relative identifiers, behind the directory of the referrer. -/

theorem origin_relative_of_mem {origin path id : List Char} (leads : Leads origin path) (slash : '/' ∈ path)
    (relative : isRelative id = true) :
    Path.origin (normalize (directory (origin ++ path) ++ id)) = origin := by
  have longer : Leads origin (directory path ++ id) := (leads.shortened (directory_begins path)).append
    (directory_ne_nil slash) (by simp [head?_of_isRelative relative])
  rw [directory_append slash, List.append_assoc, origin_normalize longer.schemed, longer.origin]

/-- A referrer without any slash has no directory. -/
theorem origin_relative_scheme_iff {name id : List Char} (valid : isSchemeName name = true) (bare : ¬ Schemed id) :
    origin (normalize id) = name ++ [':'] ↔ name ++ [':'] <+: normalize id := by
  have tidied : normalize id = tidy id := by
    rw [normalize, splitOrigin_of_not_schemed bare]
    rfl
  constructor
  · exact fun same => same ▸ origin_begins (normalize id)
  · rintro ⟨rest, begins⟩
    have single : ¬ ['/', '/'] <+: rest := by
      intro double
      refine single_tidy id ?_
      rw [← tidied, ← begins]
      exact double.isInfix.trans (List.suffix_append ..).isInfix
    rw [← begins]
    exact (Leads.scheme valid single).origin

/-- The last slash of a referrer without a path is in front of its authority. -/
theorem directory_authority {host : List Char} (inside : '/' ∉ host) (name : List Char) :
    directory (name ++ ':' :: '/' :: '/' :: host) = name ++ [':', '/', '/'] := by
  have split : name ++ ':' :: '/' :: '/' :: host = (name ++ [':', '/', '/']) ++ host := by simp
  rw [split, directory_append_of_not_mem inside, directory_append (by decide)]
  rfl

/-- A relative identifier stays at the origin of its referrer just if the directory of the referrer is more
than a part of the origin, or if what the identifier leads to happens to have the same origin. -/
theorem origin_relative_iff {referrer id : List Char} (schemed : Schemed referrer) (relative : isRelative id = true)
    (bare : ¬ Schemed id) :
    origin (normalize (directory referrer ++ id)) = origin referrer ↔
      '/' ∈ (splitOrigin referrer).2 ∨ referrer = directory referrer ++ id.takeWhile (· != '/') ∨
        ('/' ∉ referrer ∧ origin referrer <+: normalize id) := by
  have leads := leads_splitOrigin schemed
  have written := splitOrigin_append referrer
  rw [show origin referrer = (splitOrigin referrer).1 from rfl]
  generalize (splitOrigin referrer).1 = origin' at leads written ⊢
  generalize (splitOrigin referrer).2 = path at leads written ⊢
  subst written
  by_cases slash : '/' ∈ path
  · exact iff_of_true (origin_relative_of_mem leads slash relative) (.inl slash)
  · cases leads with
    | @scheme name _ valid single =>
      have plain : '/' ∉ name ++ [':'] ++ path := fun member =>
        (List.mem_append.mp member).elim (slash_not_mem_scheme valid) slash
      rw [directory_of_not_mem plain, List.nil_append, List.nil_append, origin_relative_scheme_iff valid bare]
      refine ⟨fun begins => .inr (.inr ⟨plain, begins⟩), ?_⟩
      rintro (member | same | ⟨-, begins⟩)
      · exact absurd member slash
      · -- A scheme begins with a letter, the identifier with a dot.
        obtain ⟨more, rfl⟩ := List.head?_eq_some_iff.mp (head?_of_isRelative relative)
        rw [same] at schemed
        exact absurd (head?_of_schemed schemed '.' (by simp)) (by decide)
      · exact begins
    | @authority name host _ valid inside stops =>
      obtain rfl : path = [] := by
        cases path with
        | nil => rfl
        | cons c path => exact absurd (stops c rfl ▸ List.mem_cons_self ..) slash
      have behind (rest : List Char) : name ++ [':', '/', '/'] ++ rest = name ++ ':' :: '/' :: '/' :: rest := by simp
      rw [List.append_nil, directory_authority inside, behind, behind, origin_doubled valid]
      constructor
      · exact fun same => .inr (.inl same.symm)
      · rintro (member | same | ⟨plain, -⟩)
        · exact absurd member slash
        · exact same.symm
        · exact absurd (by simp) plain

/-! Other identifiers, behind the origin of the base or behind the base. -/

/-- An identifier that begins with a slash stays at the origin of the base just if this has an authority, or if
no second slash follows. -/
theorem origin_absolute_iff {base id : List Char} (schemed : Schemed base) (absolute : isAbsolute id = true) :
    origin (normalize (origin base ++ id)) = origin base ↔ '/' ∈ origin base ∨ ¬ ['/', '/'] <+: id := by
  have leads := leads_splitOrigin schemed
  rw [show origin base = (splitOrigin base).1 from rfl]
  generalize (splitOrigin base).1 = origin' at leads ⊢
  generalize (splitOrigin base).2 = path at leads
  cases leads with
  | @scheme name _ valid =>
    by_cases double : ['/', '/'] <+: id
    · obtain ⟨rest, rfl⟩ := double
      simp only [List.append_assoc, List.cons_append, List.nil_append]
      rw [origin_doubled valid]
      simp [slash_not_mem_scheme valid]
    · have leads : Leads (name ++ [':']) id := .scheme valid double
      rw [origin_normalize leads.schemed, leads.origin]
      exact iff_of_true rfl (.inr double)
  | @authority name host _ valid inside =>
    have leads : Leads (name ++ ':' :: '/' :: '/' :: host) id := by
      refine .authority valid inside fun c first => ?_
      rw [isAbsolute, Option.mem_def.mp first] at absolute
      simpa using absolute
    rw [origin_normalize leads.schemed, leads.origin]
    exact iff_of_true rfl (.inl (by simp))

/-- An identifier that is put behind the whole base stays at the origin of the base just if the base has a
path. -/
theorem origin_below_iff {base id : List Char} (schemed : Schemed base) (ends : endsInSlash base = true)
    (filled : id ≠ []) (other : isAbsolute id = false) :
    origin (normalize (base ++ id)) = origin base ↔ (splitOrigin base).2 ≠ [] := by
  have leads := leads_splitOrigin schemed
  have written := splitOrigin_append base
  rw [show origin base = (splitOrigin base).1 from rfl]
  generalize (splitOrigin base).1 = origin' at leads written ⊢
  generalize (splitOrigin base).2 = path at leads written ⊢
  subst written
  by_cases empty : path = []
  · subst empty
    rw [List.append_nil] at ends ⊢
    refine iff_of_false ?_ fun none => none rfl
    cases leads with
    | scheme => simp [endsInSlash_append_singleton] at ends
    | @authority name host _ valid inside =>
      obtain ⟨c, more, rfl⟩ := List.exists_cons_of_ne_nil filled
      have apart : c ≠ '/' := by simpa [isAbsolute] using other
      have each : ∀ d ∈ host, (d != '/') = true := fun d member => bne_iff_ne.mpr fun same => inside (same ▸ member)
      simp only [List.append_assoc, List.cons_append]
      rw [origin_doubled valid, List.takeWhile_append_of_pos each, List.takeWhile_cons_of_pos (by simpa using apart)]
      simp
  · have longer : Leads origin' (path ++ id) := leads.append empty (by simpa [isAbsolute] using other)
    rw [List.append_assoc, origin_normalize longer.schemed, longer.origin]
    exact iff_of_true rfl empty

end Path

namespace Config

open ModuleLoader.Path

/-- An identifier without a scheme of its own, which means something, is put behind a base that is a directory
with a scheme, or behind a referrer with a scheme. -/
structure Places (config : Config) (id : String) (referrer : Option Locator) : Prop where
  based : Schemed config.base.toList
  ends : endsInSlash config.base.toList = true
  asked : Schemed (referrer.getD config.root).text.toList
  named : Text.trim id ≠ ""
  filled : config.substituted id ≠ ""
  bare : ¬ Schemed (config.substituted id).toList

theorem meant_of_not_schemed {config : Config} {id : String} (bare : ¬ Schemed (config.substituted id).toList)
    (referrer : Option Locator) : config.meant id referrer =
      if isRelative (config.substituted id).toList then
        directory (referrer.getD config.root).text.toList ++ (config.substituted id).toList
      else if isAbsolute (config.substituted id).toList then
        origin config.base.toList ++ (config.substituted id).toList
      else config.base.toList ++ (config.substituted id).toList := by
  rw [meant, joined, Locator.directory, String.toList_ofList]
  exact if_neg bare

/-- An identifier without a scheme always means something. A relative one stays at the origin of the referrer
if this has a path with a slash; without one its directory is empty or ends inside the origin, and only what
looks like the same origin can be led to. An identifier that begins with a slash stays at the origin of the
base unless that is a mere scheme and a second slash follows. Any other one stays there unless the base is
nothing but a scheme and two slashes. -/
theorem origin_kept_iff (config : Config) (id : String) (referrer : Option Locator)
    (places : config.Places id referrer) :
    let asking := (referrer.getD config.root).text.toList
    let base := config.base.toList
    let text := (config.substituted id).toList
    ∃ l, config.resolve id referrer = some l ∧
      (isRelative text = true → (origin l.text.toList = origin asking ↔
        '/' ∈ (splitOrigin asking).2 ∨ asking = directory asking ++ text.takeWhile (· != '/') ∨
          ('/' ∉ asking ∧ origin asking <+: normalize text))) ∧
      (isAbsolute text = true → (origin l.text.toList = origin base ↔
        '/' ∈ origin base ∨ ¬ ['/', '/'] <+: text)) ∧
      (isRelative text = false → isAbsolute text = false → (origin l.text.toList = origin base ↔
        (splitOrigin base).2 ≠ [])) := by
  intro asking base text
  obtain ⟨based, ends, asked, named, filled, bare⟩ := places
  refine ⟨⟨String.ofList (normalize (config.meant id referrer))⟩,
    resolve_eq_some_iff.mpr ⟨named, String.toList_ofList⟩, ?_⟩
  rw [String.toList_ofList, meant_of_not_schemed bare]
  refine ⟨fun relative => ?_, fun absolute => ?_, fun other top => ?_⟩
  · rw [if_pos relative]
    exact origin_relative_iff asked relative bare
  · have other : isRelative text ≠ true := fun relative => by
      rw [isAbsolute, head?_of_isRelative relative] at absolute
      cases absolute
    rw [if_neg other, if_pos absolute]
    exact origin_absolute_iff based absolute
  · rw [if_neg (Bool.eq_false_iff.mp other), if_neg (Bool.eq_false_iff.mp top)]
    exact origin_below_iff based ends (fun empty => filled (String.toList_eq_nil_iff.mp empty)) top

/-- From a referrer without a path a dot leads to another origin, and from a base without an authority two
slashes do. -/
theorem origin_not_kept :
    (¬ ∀ (config : Config) (id : String) (referrer : Option Locator) (l : Locator), config.Places id referrer →
      config.resolve id referrer = some l → isRelative (config.substituted id).toList = true →
      origin l.text.toList = origin (referrer.getD config.root).text.toList) ∧
    ¬ ∀ (config : Config) (id : String) (referrer : Option Locator) (l : Locator), config.Places id referrer →
      config.resolve id referrer = some l → isRelative (config.substituted id).toList = false →
      origin l.text.toList = origin config.base.toList := by
  constructor
  · intro kept
    have places : Places { base := "page:/lib/" } "./x" (some ⟨"https://host"⟩) := by constructor <;> decide +kernel
    exact absurd (kept _ _ _ ⟨"https://./x"⟩ places (by decide +kernel) (by decide +kernel)) (by decide +kernel)
  · intro kept
    have places : Places { base := "page:/lib/" } "//x" (some ⟨"https://host"⟩) := by constructor <;> decide +kernel
    exact absurd (kept _ _ _ ⟨"page://x"⟩ places (by decide +kernel) (by decide +kernel)) (by decide +kernel)

theorem origin_kept_iff_climbing :
    let config : Config := { base := "https://cdn.test/lib/" }
    let referrer : Option Locator := some ⟨"page:/app/main"⟩
    config.Places "../../..//x" referrer ∧ config.Places "//host/../x" referrer ∧
      (∃ l, config.resolve "../../..//x" referrer = some l ∧ origin l.text.toList = "page:".toList) ∧
      ∃ l, config.resolve "//host/../x" referrer = some l ∧ origin l.text.toList = "https://cdn.test".toList := by
  intro config referrer
  have climbing : config.Places "../../..//x" referrer := by constructor <;> decide +kernel
  have rooted : config.Places "//host/../x" referrer := by constructor <;> decide +kernel
  obtain ⟨l, resolved, relative, -⟩ := origin_kept_iff config "../../..//x" referrer climbing
  obtain ⟨l', resolved', -, absolute, -⟩ := origin_kept_iff config "//host/../x" referrer rooted
  refine ⟨climbing, rooted, ⟨l, resolved, ?_⟩, l', resolved', ?_⟩
  · rw [(relative (by decide +kernel)).mpr (.inl (by decide +kernel))]
    decide +kernel
  · rw [(absolute (by decide +kernel)).mpr (.inl (by decide +kernel))]
    decide +kernel

end Config

end ModuleLoader
