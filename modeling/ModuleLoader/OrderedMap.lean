/-! Finite maps that remember the order in which their keys first came in. Replacing a value keeps
the key's place; removing a key keeps the order of the others. -/
namespace ModuleLoader

/-- The entries in order, no key twice. -/
structure OrderedMap (κ ν : Type) where
  entries : List (κ × ν)
  nodup : (entries.map Prod.fst).Nodup

namespace OrderedMap

variable {κ ν : Type}

def keys (m : OrderedMap κ ν) : List κ := m.entries.map Prod.fst

def size (m : OrderedMap κ ν) : Nat := m.entries.length

def isEmpty (m : OrderedMap κ ν) : Bool := m.entries.isEmpty

def empty : OrderedMap κ ν := ⟨[], List.nodup_nil⟩

instance : EmptyCollection (OrderedMap κ ν) := ⟨empty⟩

instance : Inhabited (OrderedMap κ ν) := ⟨empty⟩

@[simp] theorem keys_empty : (∅ : OrderedMap κ ν).keys = [] := rfl

variable [DecidableEq κ]

/-- The value beside the first entry with this key. -/
def lookup (key : κ) : List (κ × ν) → Option ν
  | [] => none
  | (k, v) :: rest => if k = key then some v else lookup key rest

/-- The entries with the value of `key` replaced, or with a new entry at the end. -/
def place (key : κ) (value : ν) : List (κ × ν) → List (κ × ν)
  | [] => [(key, value)]
  | (k, v) :: rest => if k = key then (k, value) :: rest else (k, v) :: place key value rest

/-- The entries without the one of `key`. -/
def drop (key : κ) : List (κ × ν) → List (κ × ν)
  | [] => []
  | (k, v) :: rest => if k = key then rest else (k, v) :: drop key rest

theorem map_fst_place (key : κ) (value : ν) (l : List (κ × ν)) :
    (place key value l).map Prod.fst =
      if key ∈ l.map Prod.fst then l.map Prod.fst else l.map Prod.fst ++ [key] := by
  induction l with
  | nil => simp [place]
  | cons e rest ih =>
    obtain ⟨k, v⟩ := e
    by_cases h : k = key
    · simp [place, h]
    · have : key ≠ k := fun e => h e.symm
      simp only [place, if_neg h, List.map_cons, ih, List.mem_cons, this, false_or]
      split <;> simp

theorem map_fst_drop (key : κ) (l : List (κ × ν)) :
    (drop key l).map Prod.fst = (l.map Prod.fst).erase key := by
  induction l with
  | nil => simp [drop]
  | cons e rest ih =>
    obtain ⟨k, v⟩ := e
    by_cases h : k = key
    · simp [drop, h]
    · simp [drop, h, ih, List.erase_cons_tail]

def get? (m : OrderedMap κ ν) (key : κ) : Option ν := lookup key m.entries

def contains (m : OrderedMap κ ν) (key : κ) : Bool := (m.get? key).isSome

def insert (m : OrderedMap κ ν) (key : κ) (value : ν) : OrderedMap κ ν where
  entries := place key value m.entries
  nodup := by
    rw [map_fst_place]
    split
    · exact m.nodup
    · rename_i h
      rw [List.nodup_append]
      refine ⟨m.nodup, by simp, fun a ha b hb => ?_⟩
      rw [List.mem_singleton.mp hb]
      exact fun e => h (e ▸ ha)

def erase (m : OrderedMap κ ν) (key : κ) : OrderedMap κ ν where
  entries := drop key m.entries
  nodup := by rw [map_fst_drop]; exact m.nodup.erase _

/-- Entries put in one after the other, later values winning. -/
def ofList (l : List (κ × ν)) : OrderedMap κ ν :=
  l.foldl (fun m e => m.insert e.1 e.2) ∅

/-! The keys and look-ups after each operation. -/

theorem lookup_isSome_iff (key : κ) (l : List (κ × ν)) :
    (lookup key l).isSome = true ↔ key ∈ l.map Prod.fst := by
  induction l with
  | nil => simp [lookup]
  | cons e rest ih =>
    obtain ⟨k, v⟩ := e
    by_cases h : k = key
    · simp [lookup, h]
    · have : key ≠ k := fun e => h e.symm
      simp only [lookup, if_neg h, ih, List.map_cons, List.mem_cons, this, false_or]

theorem lookup_place (key other : κ) (value : ν) (l : List (κ × ν)) :
    lookup other (place key value l) = if key = other then some value else lookup other l := by
  induction l with
  | nil => simp [place, lookup]
  | cons e rest ih =>
    obtain ⟨k, v⟩ := e
    by_cases h : k = key
    · subst h; by_cases h' : k = other <;> simp [place, lookup, h']
    · by_cases h' : k = other
      · subst h'; rw [place, if_neg h, lookup, if_pos rfl, if_neg (Ne.symm h), lookup, if_pos rfl]
      · simp [place, lookup, h, h', ih]

theorem lookup_drop_of_ne {key other : κ} (h : key ≠ other) (l : List (κ × ν)) :
    lookup other (drop key l) = lookup other l := by
  induction l with
  | nil => rfl
  | cons e rest ih =>
    obtain ⟨k, v⟩ := e
    by_cases h' : k = key
    · subst h'; simp [drop, lookup, h]
    · simp [drop, lookup, h', ih]

@[simp] theorem get?_empty (key : κ) : (∅ : OrderedMap κ ν).get? key = none := rfl

theorem mem_keys_iff (m : OrderedMap κ ν) (key : κ) :
    key ∈ m.keys ↔ (m.get? key).isSome = true := (lookup_isSome_iff key m.entries).symm

theorem keys_insert (m : OrderedMap κ ν) (key : κ) (value : ν) :
    (m.insert key value).keys = if key ∈ m.keys then m.keys else m.keys ++ [key] :=
  map_fst_place key value m.entries

theorem keys_erase (m : OrderedMap κ ν) (key : κ) : (m.erase key).keys = m.keys.erase key :=
  map_fst_drop key m.entries

theorem get?_insert (m : OrderedMap κ ν) (key other : κ) (value : ν) :
    (m.insert key value).get? other = if key = other then some value else m.get? other :=
  lookup_place key other value m.entries

theorem get?_erase (m : OrderedMap κ ν) (key other : κ) :
    (m.erase key).get? other = if key = other then none else m.get? other := by
  by_cases h : key = other
  · subst h
    rw [if_pos rfl, ← Option.not_isSome_iff_eq_none, ← mem_keys_iff, keys_erase]
    exact m.nodup.not_mem_erase
  · rw [if_neg h]; exact lookup_drop_of_ne h m.entries

theorem get?_erase_eq_some {m : OrderedMap κ ν} {key other : κ} {value : ν} :
    (m.erase key).get? other = some value ↔ key ≠ other ∧ m.get? other = some value := by
  rw [get?_erase]
  split
  · rename_i here
    exact ⟨fun held => (by cases held), fun held => absurd here held.1⟩
  · rename_i apart
    exact ⟨fun held => ⟨apart, held⟩, And.right⟩

/-! The entries after each operation, around the one that it is about. -/

theorem place_of_absent {key : κ} {l : List (κ × ν)} (absent : lookup key l = none) (value : ν) :
    place key value l = l ++ [(key, value)] := by
  induction l with
  | nil => rfl
  | cons e rest ih =>
    obtain ⟨k, v⟩ := e
    rw [lookup] at absent
    split at absent
    · cases absent
    · rename_i other
      rw [place, if_neg other, ih absent, List.cons_append]

theorem split_of_lookup {key : κ} {old : ν} {l : List (κ × ν)} (found : lookup key l = some old) :
    ∃ before after, l = before ++ (key, old) :: after ∧
      (∀ value, place key value l = before ++ (key, value) :: after) ∧
      drop key l = before ++ after := by
  induction l with
  | nil => cases found
  | cons e rest ih =>
    obtain ⟨k, v⟩ := e
    rw [lookup] at found
    split at found
    · rename_i here
      cases found
      refine ⟨[], rest, by rw [here]; rfl, fun value => ?_, ?_⟩
      · rw [place, if_pos here, here]
        rfl
      · rw [drop, if_pos here]
        rfl
    · rename_i other
      obtain ⟨before, after, split, placed, dropped⟩ := ih found
      refine ⟨(k, v) :: before, after, by rw [split]; rfl, fun value => ?_, ?_⟩
      · rw [place, if_neg other, placed, List.cons_append]
      · rw [drop, if_neg other, dropped, List.cons_append]

theorem drop_of_absent {key : κ} {l : List (κ × ν)} (absent : lookup key l = none) :
    drop key l = l := by
  induction l with
  | nil => rfl
  | cons e rest ih =>
    obtain ⟨k, v⟩ := e
    rw [lookup] at absent
    split at absent
    · cases absent
    · rename_i other
      rw [drop, if_neg other, ih absent]

theorem entries_insert_of_absent {m : OrderedMap κ ν} {key : κ} (absent : m.get? key = none)
    (value : ν) : (m.insert key value).entries = m.entries ++ [(key, value)] :=
  place_of_absent absent value

theorem entries_split {m : OrderedMap κ ν} {key : κ} {old : ν} (found : m.get? key = some old) :
    ∃ before after, m.entries = before ++ (key, old) :: after ∧
      (∀ value, (m.insert key value).entries = before ++ (key, value) :: after) ∧
      (m.erase key).entries = before ++ after := split_of_lookup found

/-- No key has two entries, so each entry is the one that is found. -/
theorem lookup_of_mem {key : κ} {value : ν} {l : List (κ × ν)} (distinct : (l.map Prod.fst).Nodup)
    (member : (key, value) ∈ l) : lookup key l = some value := by
  obtain ⟨before, after, rfl⟩ := List.append_of_mem member
  induction before with
  | nil => exact if_pos rfl
  | cons e rest ih =>
    obtain ⟨k, v⟩ := e
    rw [List.cons_append, List.map_cons, List.nodup_cons] at distinct
    rw [List.cons_append, lookup, if_neg]
    · exact ih distinct.2 (List.mem_append_right _ (List.mem_cons_self ..))
    · rintro rfl
      exact distinct.1 (List.mem_map.mpr
        ⟨(k, value), List.mem_append_right _ (List.mem_cons_self ..), rfl⟩)

theorem get?_of_mem {m : OrderedMap κ ν} {key : κ} {value : ν} (member : (key, value) ∈ m.entries) :
    m.get? key = some value := lookup_of_mem m.nodup member

theorem isEmpty_of_found {m : OrderedMap κ ν} {key : κ} (found : (m.get? key).isSome = true) :
    m.isEmpty = false := by
  obtain ⟨value, found⟩ := Option.isSome_iff_exists.mp found
  obtain ⟨before, after, split, -⟩ := entries_split found
  rw [isEmpty, split]
  cases before <;> rfl

theorem erase_of_absent {m : OrderedMap κ ν} {key : κ} (absent : m.get? key = none) :
    (m.erase key).entries = m.entries := drop_of_absent absent

end OrderedMap

end ModuleLoader
