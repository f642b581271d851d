import ModuleLoader.Resolver
import ModuleLoader.Proofs.Paths.Origins
import ModuleLoader.Proofs.Paths.Walks

/-! Resolved locators are canonical. What an identifier is resolved to keeps the origin of the text that it
stands for; its path has no segment that a shorter path could do without; and as an identifier of its own it
stands for itself. -/
namespace ModuleLoader

namespace Text

theorem trim_eq_self {s : String} (first : ∀ c ∈ s.toList.head?, isBlank c = false)
    (last : ∀ c ∈ s.toList.getLast?, isBlank c = false) : trim s = s := by
  have drop_self (cs : List Char) (begins : ∀ c ∈ cs.head?, isBlank c = false) : cs.dropWhile isBlank = cs := by
    cases cs with
    | nil => rfl
    | cons c cs => rw [List.dropWhile_cons_of_neg (by simp [begins c rfl])]
  rw [trim, drop_self _ first, trimEnd, drop_self _ (by simpa using last), List.reverse_reverse,
    String.ofList_toList]

/-- A text that has been trimmed does not end in a blank. -/
theorem getLast?_trim (s : String) : ∀ c ∈ (trim s).toList.getLast?, isBlank c = false := by
  rw [trim, trimEnd, String.toList_ofList, List.getLast?_reverse]
  exact head?_dropWhile

theorem isBlank_of_isAlpha {c : Char} (letter : c.isAlpha = true) : isBlank c = false := by
  have code : (65 ≤ c.toNat ∧ c.toNat ≤ 90) ∨ (97 ≤ c.toNat ∧ c.toNat ≤ 122) := by
    rcases (Bool.or_eq_true ..).mp letter with upper | lower
    · exact .inl (of_decide_eq_true upper)
    · obtain ⟨least, most⟩ := (Bool.and_eq_true ..).mp lower
      exact .inr ⟨of_decide_eq_true least, of_decide_eq_true most⟩
  simp only [isBlank, Bool.or_eq_false_iff, Bool.and_eq_false_iff, decide_eq_false_iff_not, beq_eq_false_iff_ne]
  omega

end Text

namespace Path

/-- No segment stays where it is; one is empty only in front of a first slash and behind a last one; and only
a path that does not begin with a slash leads up, before it leads anywhere else. -/
def Canonical (path : List Char) : Prop :=
  path = [] ∨ ∃ levels names, (isAbsolute path = true → levels = 0) ∧
    (∀ s ∈ names, s ≠ [] ∧ s ≠ here ∧ s ≠ up) ∧
    segments path = (if isAbsolute path then [[]] else []) ++ (List.replicate levels up ++ names) ++
      (if endsInSlash path then [[]] else [])

theorem Stack.exists_names {absolute : Bool} {kept : List (List Char)} (stack : Stack absolute kept) :
    ∃ levels names, kept.reverse = List.replicate levels up ++ names ∧ (absolute = true → levels = 0) ∧
      ∀ s ∈ names, s ≠ [] ∧ s ≠ here ∧ s ≠ up := by
  induction stack with
  | ups levels rooted => exact ⟨levels, [], by simp, rooted, by simp⟩
  | @name s _ named below ih =>
    obtain ⟨levels, names, split, rooted, each⟩ := ih
    refine ⟨levels, names ++ [s], by rw [List.reverse_cons, split, List.append_assoc], rooted, fun t member => ?_⟩
    rcases List.mem_append.mp member with member | member
    · exact each t member
    · obtain rfl := List.mem_singleton.mp member
      exact ⟨named.1, named.2.1, named.2.2.1⟩

theorem canonical_tidy (path : List Char) : Canonical (tidy path) := by
  have stack := (walk_settled path).stack
  by_cases empty : (walk path).kept = []
  · rw [tidy, Walk.path_of_empty empty]
    cases isAbsolute path with
    | true => exact .inr ⟨0, [], fun _ => rfl, by simp, rfl⟩
    | false => exact .inl rfl
  · obtain ⟨levels, names, split, rooted, each⟩ := stack.exists_names
    right
    refine ⟨levels, names, by rwa [isAbsolute_tidy], each, ?_⟩
    rw [isAbsolute_tidy]
    unfold tidy
    rw [Walk.segments_path stack empty, Walk.endsInSlash_path stack, if_neg empty, split]

/-- An origin leads its path also after the path has been tidied. -/
theorem Leads.tidy {origin path : List Char} (leads : Leads origin path) : Leads origin (tidy path) := by
  cases leads with
  | scheme valid => exact .scheme valid fun double => single_tidy path double.isInfix
  | authority valid inside stops =>
    refine .authority valid inside fun c first => ?_
    cases path with
    | nil => cases first
    | cons d path =>
      obtain rfl := stops d rfl
      have absolute := isAbsolute_tidy ('/' :: path)
      rw [isAbsolute, Option.mem_def.mp first] at absolute
      simpa [isAbsolute] using absolute

theorem normalize_of_leads {origin path : List Char} (leads : Leads origin path) :
    normalize (origin ++ path) = origin ++ tidy path := by
  rw [normalize, leads.splitOrigin]
  rfl

theorem normalize_normalize {text : List Char} (schemed : Schemed text) :
    normalize (normalize text) = normalize text := by
  have leads := leads_splitOrigin schemed
  rw [show normalize text = origin text ++ tidy (splitOrigin text).2 from rfl]
  exact (normalize_of_leads leads.tidy).trans (by rw [tidy_tidy]; rfl)

theorem head?_of_schemed {text : List Char} (schemed : Schemed text) : ∀ c ∈ text.head?, c.isAlpha = true := by
  obtain ⟨name, rest, valid, rfl⟩ := schemed_iff.mp schemed
  cases name with
  | nil => cases valid
  | cons d name =>
    intro c first
    obtain rfl : d = c := Option.some.inj first
    exact (Bool.and_eq_true _ _ ▸ valid).1

/-- Normalized, a text ends as it did before, or in a slash, or it is a scheme. -/
theorem getLast?_normalize {text : List Char} (schemed : Schemed text) {last : Char}
    (ends : text.getLast? = some last) : ∀ c ∈ (normalize text).getLast?, c = '/' ∨ c = ':' ∨ c = last := by
  intro c normalized
  have leads := leads_splitOrigin schemed
  have written := splitOrigin_append text
  rw [show normalize text = (splitOrigin text).1 ++ tidy (splitOrigin text).2 from rfl] at normalized
  generalize (splitOrigin text).1 = origin at leads written normalized
  generalize (splitOrigin text).2 = path at leads written normalized
  by_cases bare : tidy path = []
  · rw [bare, List.append_nil] at normalized
    cases leads with
    | scheme =>
      obtain rfl : ':' = c := by simpa using normalized
      exact .inr (.inl rfl)
    | @authority name host _ _ _ stops =>
      cases path with
      | nil =>
        rw [← written, List.append_nil] at ends
        exact .inr (.inr (Option.some.inj (normalized.symm.trans ends)))
      | cons d path =>
        obtain rfl := stops d rfl
        exact absurd bare (tidy_ne_nil rfl)
  · rw [List.getLast?_append_of_ne_nil _ bare] at normalized
    have filled : path ≠ [] := by
      rintro rfl
      exact bare rfl
    rw [← written, List.getLast?_append_of_ne_nil _ filled] at ends
    exact (getLast?_tidy ends c normalized).imp_right .inr

end Path

namespace Config

open ModuleLoader.Path

/-- An identifier without the blanks around it, or what stands for it. -/
def substituted (config : Config) (id : String) : String :=
  (config.substitutes.get? (Text.trim id)).getD (Text.trim id)

/-- The text that an identifier stands for when it is resolved. -/
def meant (config : Config) (id : String) (referrer : Option Locator) : List Char :=
  config.joined (config.substituted id).toList (referrer.getD config.root)

theorem resolve_eq_some_iff {config : Config} {id : String} {referrer : Option Locator} {l : Locator} :
    config.resolve id referrer = some l ↔
      Text.trim id ≠ "" ∧ l.text.toList = normalize (config.meant id referrer) := by
  obtain ⟨text⟩ := l
  rw [resolve]
  dsimp only
  split
  · rename_i empty
    simp [String.isEmpty_iff.mp empty]
  · rename_i filled
    rw [Option.some.injEq, Locator.mk.injEq]
    constructor
    · rintro rfl
      exact ⟨fun empty => filled (String.isEmpty_iff.mpr empty), String.toList_ofList⟩
    · rintro ⟨-, same⟩
      rw [← String.ofList_toList (s := text), same]
      rfl

theorem exists_joined_eq_append (config : Config) (id : List Char) (referrer : Locator) :
    ∃ before, config.joined id referrer = before ++ id := by
  unfold joined
  split
  · exact ⟨[], rfl⟩
  · split
    · exact ⟨_, rfl⟩
    · split <;> exact ⟨_, rfl⟩

/-- The text that an identifier stands for does not end in a blank, if what is put in the place of the
identifier does not. -/
theorem getLast?_meant {config : Config} {id : String} (referrer : Option Locator) (named : Text.trim id ≠ "")
    (clean : ∀ target, config.substitutes.get? (Text.trim id) = some target → target ≠ "" ∧ Text.trim target = target) :
    ∃ last, (config.meant id referrer).getLast? = some last ∧ Text.isBlank last = false := by
  obtain ⟨before, written⟩ := config.exists_joined_eq_append (config.substituted id).toList (referrer.getD config.root)
  have tight : ∃ s, config.substituted id = Text.trim s ∧ Text.trim s ≠ "" := by
    unfold substituted
    cases found : config.substitutes.get? (Text.trim id) with
    | none => exact ⟨id, rfl, named⟩
    | some target =>
      obtain ⟨filled, trimmed⟩ := clean target found
      exact ⟨target, trimmed.symm, trimmed.symm ▸ filled⟩
  obtain ⟨s, same, filled⟩ := tight
  have present : (Text.trim s).toList ≠ [] := fun empty => filled (String.toList_eq_nil_iff.mp empty)
  obtain ⟨last, ends⟩ := Option.isSome_iff_exists.mp (List.getLast?_isSome.mpr present)
  refine ⟨last, ?_, Text.getLast?_trim s last ends⟩
  rw [meant, written, same, List.getLast?_append_of_ne_nil _ present, ends]

/-- A locator with a scheme that is normalized and that nothing is substituted for is resolved to itself. -/
theorem resolve_self {config : Config} {l : Locator} (schemed : Schemed l.text.toList)
    (normal : normalize l.text.toList = l.text.toList) (trimmed : Text.trim l.text = l.text)
    (own : config.substitutes.get? l.text = none) (referrer : Option Locator) :
    config.resolve l.text referrer = some l := by
  have whole : config.meant l.text referrer = l.text.toList := by
    rw [meant, substituted, trimmed, own, Option.getD_none]
    exact if_pos schemed
  refine resolve_eq_some_iff.mpr ⟨?_, by rw [whole, normal]⟩
  rw [trimmed]
  intro empty
  rw [empty] at schemed
  cases schemed

/-- What an identifier with a scheme, or one that is put behind a scheme, is resolved to begins with the
origin of the text that the identifier stands for; the path behind the origin is canonical; nothing is left to
normalize; and it is resolved to itself again, whoever asks, unless it is an identifier that another one is
substituted for. What has been substituted must not be empty or have blanks around it. -/
theorem resolved_canonical (config : Config) (id : String) (referrer : Option Locator) (l : Locator)
    (resolved : config.resolve id referrer = some l) (schemed : Schemed (config.meant id referrer)) :
    (∃ path, l.text.toList = origin (config.meant id referrer) ++ path ∧ Canonical path) ∧
      normalize l.text.toList = l.text.toList ∧
      (config.substitutes.get? l.text = none →
        (∀ target, config.substitutes.get? (Text.trim id) = some target → target ≠ "" ∧ Text.trim target = target) →
        ∀ asking, config.resolve l.text asking = some l) := by
  obtain ⟨named, written⟩ := resolve_eq_some_iff.mp resolved
  have normal : normalize l.text.toList = l.text.toList := by rw [written, normalize_normalize schemed]
  have leads := (leads_splitOrigin schemed).tidy
  have whole : l.text.toList = origin (config.meant id referrer) ++ tidy (splitOrigin (config.meant id referrer)).2 :=
    written
  refine ⟨⟨_, whole, canonical_tidy _⟩, normal, fun own clean asking => ?_⟩
  have again : Schemed l.text.toList := whole ▸ leads.schemed
  refine resolve_self again normal (Text.trim_eq_self (fun c first => ?_) fun c last => ?_) own asking
  · exact Text.isBlank_of_isAlpha (head?_of_schemed again c first)
  · obtain ⟨end_, ends, dark⟩ := getLast?_meant referrer named clean
    rw [written] at last
    rcases getLast?_normalize schemed ends c last with rfl | rfl | rfl
    · decide
    · decide
    · exact dark

theorem resolved_canonical_substituted :
    let config : Config := { substitutes := (∅ : OrderedMap String String).insert "jq" "../vendor//jq/." }
    let l : Locator := ⟨"page:/vendor/jq/"⟩
    config.resolve " jq " none = some l ∧ Schemed (config.meant " jq " none) ∧
      (∃ path, l.text.toList = origin (config.meant " jq " none) ++ path ∧ Canonical path) ∧
      normalize l.text.toList = l.text.toList ∧ ∀ asking, config.resolve l.text asking = some l := by
  intro config l
  have resolved : config.resolve " jq " none = some l := by decide +kernel
  have schemed : Schemed (config.meant " jq " none) := by decide +kernel
  obtain ⟨split, normal, again⟩ := resolved_canonical config " jq " none l resolved schemed
  refine ⟨resolved, schemed, split, normal, again (by decide +kernel) fun target found => ?_⟩
  have same : config.substitutes.get? (Text.trim " jq ") = some "../vendor//jq/." := by decide +kernel
  obtain rfl := Option.some.inj (same.symm.trans found)
  decide +kernel

end Config

end ModuleLoader
