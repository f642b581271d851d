import ModuleLoader.Proofs.Equality.Steps

/-! Equality of values in terms of what can be read from them. Values that are equal hold alike values at every path,
or the very same value below an object that both share. Conversely, values that agree at every path are equal, unless
a NaN or an object below the depth limit stands in the way. -/
namespace ModuleLoader

namespace Memory

variable {m : Memory}

/-- The value at the end of a path of keys and indices. -/
def read (m : Memory) (value : Value) : List Place → Option Value
  | [] => some value
  | place :: rest => (m.part? value place).bind fun part => m.read part rest

theorem read_cons {value part : Value} {place : Place} (found : m.part? value place = some part)
    (rest : List Place) : m.read value (place :: rest) = m.read part rest := by
  rw [read, found, Option.bind_some]

theorem read_single (value : Value) (place : Place) : m.read value [place] = m.part? value place := by
  rw [read]
  exact Option.bind_fun_some _

/-- From a value without parts only the empty path leads anywhere. -/
theorem read_of_isPlain {value x : Value} (plain : value.isPlain = true) {path : List Place}
    (found : m.read value path = some x) : x = value := by
  cases path with
  | nil => exact (Option.some.inj found).symm
  | cons place rest =>
    rw [read, Value.part?_of_isPlain plain] at found
    cases found

/-- From both values the path comes through one and the same object, and so to the same stored value. -/
def Joined (m : Memory) (a b : Value) (path : List Place) : Prop :=
  ∃ before after id, path = before ++ after ∧
    m.read a before = some (.object id) ∧ m.read b before = some (.object id)

theorem Joined.cons {a b x y : Value} {place : Place} {rest : List Place} (joined : m.Joined x y rest)
    (left : m.part? a place = some x) (right : m.part? b place = some y) : m.Joined a b (place :: rest) := by
  obtain ⟨before, after, id, rfl, first, second⟩ := joined
  exact ⟨place :: before, after, id, rfl, (read_cons left before).trans first, (read_cons right before).trans second⟩

/-- The objects have the same members, in whatever order. -/
def Rearranged (m m' : Memory) : Prop := ∀ id, (m.members id).entries.Perm (m'.members id).entries

theorem Rearranged.symm {m' : Memory} (same : m.Rearranged m') : m'.Rearranged m := fun id => (same id).symm

theorem Rearranged.part? {m' : Memory} (same : m.Rearranged m') (value : Value) (place : Place) :
    m'.part? value place = m.part? value place := by
  cases place with
  | item i => rfl
  | member key =>
    cases value with
    | object id =>
      show (m'.members id).get? key = (m.members id).get? key
      refine Option.ext fun x => ?_
      rw [← OrderedMap.mem_entries_iff, ← OrderedMap.mem_entries_iff, (same id).mem_iff]
    | _ => rfl

end Memory

namespace Value

variable {m m' : Memory} {budget : Nat} {a b : Value}

/-- Equal values agree at every path. Where the comparison stopped at a shared object, the paths below it are joined. -/
theorem agree_of_equalWithin (equal : a.equalWithin m budget b = true) (path : List Place) :
    Option.Rel (fun x y => x.Alike y ∨ (x = y ∧ m.Joined a b path)) (m.read a path) (m.read b path) := by
  induction path generalizing a b budget with
  | nil =>
    rcases equalWithin_iff.mp equal with ⟨object, rfl⟩ | ⟨alike, -, -⟩
    · cases a with
      | object id => exact .some (.inl trivial)
      | _ => cases object
    · exact .some (.inl alike)
  | cons place rest ih =>
    rcases equalWithin_iff.mp equal with ⟨object, rfl⟩ | ⟨-, -, parts⟩
    · have joined : m.Joined a a (place :: rest) := by
        cases a with
        | object id => exact ⟨[], place :: rest, id, rfl, rfl, rfl⟩
        | _ => cases object
      cases m.read a (place :: rest) with
      | none => exact .none
      | some x => exact .some (.inr ⟨rfl, joined⟩)
    · refine rel_bind (parts place) fun x y left right equal => ?_
      refine rel_imp (ih equal) fun _ _ _ _ agree => ?_
      exact agree.imp_right fun ⟨same, joined⟩ => ⟨same, joined.cons left right⟩

/-- Values alike at every path are equal, as long as objects lie within the levels left. -/
theorem equalWithin_of_alike (alike : ∀ path, Option.Rel Alike (m.read a path) (m.read b path))
    (levels : ∀ path id, m.read a path = some (.object id) → path.length < budget) :
    a.equalWithin m budget b = true := by
  suffices all : ∀ c : Comparison, (∀ path, Option.Rel Alike (m.read c.left path) (m.read c.right path)) →
      (∀ path id, m.read c.left path = some (.object id) → path.length < c.budget) →
      c.left.equalWithin m c.budget c.right = true from all ⟨budget, a, b⟩ alike levels
  intro c
  induction c using (Comparison.nested_wellFounded m).induction with
  | _ c ih =>
    intro alike levels
    obtain ⟨budget, a, b⟩ := c
    dsimp only at alike levels ⊢
    have opened : a.isObject = true → 0 < budget := by
      intro object
      cases a with
      | object id => exact levels [] id rfl
      | _ => cases object
    refine equalWithin_iff.mpr (.inr ⟨?_, opened, fun place => ?_⟩)
    · cases alike [] with
      | some alike => exact alike
    · have here := alike [place]
      rw [Memory.read_single, Memory.read_single] at here
      refine rel_imp here fun x y left right _ => ?_
      refine ih ⟨budget - 1, x, y⟩ ⟨rfl, opened, place, left, right⟩ (fun path => ?_) fun path id found => ?_
      · have below := alike (place :: path)
        rwa [Memory.read_cons left, Memory.read_cons right] at below
      · have bound := levels (place :: path) id ((Memory.read_cons left path).trans found)
        rw [List.length_cons] at bound
        dsimp only
        omega

/-- The order of the members plays no role. -/
theorem equalWithin_rearranged (same : m.Rearranged m') (equal : a.equalWithin m budget b = true) :
    a.equalWithin m' budget b = true := by
  refine equalWithin_induction ?shared ?opened equal
  case shared =>
    intro budget id
    exact equalWithin_shared id
  case opened =>
    intro budget a b alike levels parts
    refine equalWithin_iff.mpr (.inr ⟨alike, levels, fun place => ?_⟩)
    rw [same.part?, same.part?]
    exact rel_imp (parts place) fun x y _ _ equal => equal.2

end Value

/-- Equality is equality of structure. The comparison asks for ever smaller ones, whatever refers to what. Equal values
agree at every path; the values there are alike, or one and the same because the paths have come through a shared
object. Values that agree at every path are equal if there is no NaN in them and no object eight levels down. Only the
members count, not the order in which they came in. -/
theorem equal_structural (m : Memory) (a b : Value) :
    WellFounded (Comparison.Nested m) ∧
    (a.equal m b = true → ∀ path, Option.Rel (fun x y => x.Alike y ∨ (x = y ∧ m.Joined a b path))
      (m.read a path) (m.read b path)) ∧
    ((∀ path, Option.Rel (fun x y => x.Alike y ∨ x = y) (m.read a path) (m.read b path)) →
      (∀ path x, m.read a path = some (.float x) → x.isNaN = false) →
      (∀ path id, m.read a path = some (.object id) → path.length < 8) → a.equal m b = true) ∧
    ∀ m' : Memory, m.Rearranged m' → a.equal m' b = a.equal m b := by
  refine ⟨Comparison.nested_wellFounded m, Value.agree_of_equalWithin, fun agree number levels => ?_, fun m' same => ?_⟩
  · refine Value.equalWithin_of_alike (fun path => ?_) levels
    refine rel_imp (agree path) fun x y left _ alike => ?_
    rcases alike with alike | rfl
    · exact alike
    · exact Value.alike_self fun z float => number path z (float ▸ left)
  · rw [Bool.eq_iff_iff]
    exact ⟨Value.equalWithin_rearranged same.symm, Value.equalWithin_rearranged same⟩

/-- The members `x` and `y` in the one order and in the other. -/
def ascending : Members := ⟨[("x", .int 1), ("y", .int 2)], by decide⟩

def descending : Members := ⟨[("y", .int 2), ("x", .int 1)], by decide⟩

/-- A memory of two objects. -/
def Memory.ofTwo (first second : Members) : Memory := ((Memory.empty.newObject first).1.newObject second).1

def crossed : Memory := .ofTwo ascending descending

theorem crossed_part? (place : Place) :
    crossed.part? (.object ⟨1⟩) place = crossed.part? (.object ⟨0⟩) place := by
  cases place with
  | item i => rfl
  | member key =>
    show (if "y" = key then some (.int 2) else if "x" = key then some (.int 1) else none) =
      (if "x" = key then some (Value.int 1) else if "y" = key then some (.int 2) else none)
    grind

theorem crossed_read {place : Place} {rest : List Place} {x : Value}
    (found : crossed.read (.object ⟨0⟩) (place :: rest) = some x) : ∃ n, x = .int n := by
  cases place with
  | item i => cases found
  | member key =>
    have opened : (if "x" = key then some (Value.int 1) else if "y" = key then some (.int 2) else none).bind
        (fun part => crossed.read part rest) = some x := found
    split_ifs at opened
    · exact ⟨1, Memory.read_of_isPlain rfl opened⟩
    · exact ⟨2, Memory.read_of_isPlain rfl opened⟩
    · cases opened

theorem crossed_rearranged : crossed.Rearranged (Memory.ofTwo descending ascending)
  | ⟨0⟩ => .swap ..
  | ⟨1⟩ => .swap ..
  | ⟨_ + 2⟩ => .refl _

theorem equal_structural_crossed :
    (Value.object ⟨0⟩).equal crossed (.object ⟨1⟩) = true ∧
    (∀ path, Option.Rel
      (fun x y => x.Alike y ∨ (x = y ∧ crossed.Joined (.object ⟨0⟩) (.object ⟨1⟩) path))
      (crossed.read (.object ⟨0⟩) path) (crossed.read (.object ⟨1⟩) path)) ∧
    (Value.object ⟨0⟩).equal (Memory.ofTwo descending ascending) (.object ⟨1⟩) = true := by
  obtain ⟨-, sound, complete, order⟩ := equal_structural crossed (.object ⟨0⟩) (.object ⟨1⟩)
  have equal : (Value.object ⟨0⟩).equal crossed (.object ⟨1⟩) = true := by
    refine complete (fun path => ?_) (fun path x found => ?_) fun path id found => ?_
    · cases path with
      | nil => exact .some (.inl trivial)
      | cons place rest =>
        rw [Memory.read, Memory.read, crossed_part?]
        cases (crossed.part? (.object ⟨0⟩) place).bind _ with
        | none => exact .none
        | some x => exact .some (.inr rfl)
    · cases path with
      | nil => cases found
      | cons place rest =>
        obtain ⟨n, same⟩ := crossed_read found
        cases same
    · cases path with
      | nil => decide
      | cons place rest =>
        obtain ⟨n, same⟩ := crossed_read found
        cases same
  exact ⟨equal, sound equal, (order _ crossed_rearranged).trans equal⟩

end ModuleLoader
