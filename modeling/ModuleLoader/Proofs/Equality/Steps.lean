import ModuleLoader.Value.Equality
import Mathlib.Data.List.Perm.Subperm
import Mathlib.Order.WellFounded

/-! One step of comparing values. Two values are equal if they are the same object, or if they are of one kind
and have equal parts at the same places. A comparison nests to a finite depth only, whatever refers to what. -/
namespace ModuleLoader

theorem rel_imp {α β : Type} {R S : α → β → Prop} {p : Option α} {q : Option β} (related : Option.Rel R p q)
    (weaker : ∀ x y, p = some x → q = some y → R x y → S x y) : Option.Rel S p q := by
  cases related with
  | none => exact .none
  | some r => exact .some (weaker _ _ rfl rfl r)

theorem rel_bind {α β γ δ : Type} {R : α → β → Prop} {S : γ → δ → Prop} {p : Option α} {q : Option β}
    {f : α → Option γ} {g : β → Option δ} (related : Option.Rel R p q)
    (later : ∀ x y, p = some x → q = some y → R x y → Option.Rel S (f x) (g y)) :
    Option.Rel S (p.bind f) (q.bind g) := by
  cases related with
  | none => exact .none
  | some r => exact later _ _ rfl rfl r

theorem rel_self {α : Type} {R : α → α → Prop} {p : Option α} (each : ∀ x, p = some x → R x x) : Option.Rel R p p := by
  cases p with
  | none => exact .none
  | some x => exact .some (each x rfl)

theorem rel_symm {α β : Type} {R : α → β → Prop} {S : β → α → Prop} {p : Option α} {q : Option β}
    (related : Option.Rel R p q) (turned : ∀ x y, R x y → S y x) : Option.Rel S q p := by
  cases related with
  | none => exact .none
  | some r => exact .some (turned _ _ r)

theorem rel_trans {α β γ : Type} {R : α → β → Prop} {S : β → γ → Prop} {T : α → γ → Prop} {p : Option α}
    {q : Option β} {r : Option γ} (first : Option.Rel R p q) (second : Option.Rel S q r)
    (both : ∀ x y z, R x y → S y z → T x z) : Option.Rel T p r := by
  cases first with
  | none =>
    cases second
    exact .none
  | some left =>
    cases second with
    | some right => exact .some (both _ _ _ left right)

/-- Where a part of a value is: a member of an object or an item of a list. -/
inductive Place where
  | member (key : String)
  | item (index : Nat)
deriving DecidableEq

/-- The part at one place. -/
def Memory.part? (m : Memory) (value : Value) : Place → Option Value
  | .member key => m.member? value key
  | .item index =>
    match value with
    | .list _ items => items[index]?
    | _ => none

namespace Value

/-- Of the same kind, and equal by themselves if they have no parts. -/
def Alike : Value → Value → Prop
  | null, null => True
  | bool x, bool y => x = y
  | int x, int y => x = y
  | float x, float y => x.equals y = true
  | text _ x, text _ y => x = y
  | list _ _, list _ _ => True
  | object _, object _ => True
  | _, _ => False

end Value

namespace OrderedMap

variable {κ ν : Type}

/-- Two maps of one size have the same keys if each key of the first is one of the second. -/
theorem keys_perm {first second : OrderedMap κ ν} (sizes : first.size = second.size)
    (held : ∀ key ∈ first.keys, key ∈ second.keys) : first.keys.Perm second.keys := by
  refine (List.subperm_of_subset first.nodup held).perm_of_length_le ?_
  show (second.entries.map Prod.fst).length ≤ (first.entries.map Prod.fst).length
  rw [List.length_map, List.length_map]
  exact sizes.ge

variable [DecidableEq κ]

theorem mem_entries_iff {members : OrderedMap κ ν} {key : κ} {value : ν} :
    (key, value) ∈ members.entries ↔ members.get? key = some value := by
  refine ⟨get?_of_mem, fun found => ?_⟩
  obtain ⟨before, after, split, -⟩ := entries_split found
  rw [split]
  exact List.mem_append_right _ (List.mem_cons_self ..)

end OrderedMap

variable {m : Memory} {budget : Nat}

theorem itemsEqual_iff {xs ys : List Value} :
    itemsEqual m budget xs ys = true ↔
      ∀ i : Nat, Option.Rel (fun x y => x.equalWithin m budget y = true) xs[i]? ys[i]? := by
  induction xs generalizing ys with
  | nil =>
    cases ys with
    | nil => exact iff_of_true (by rw [itemsEqual]) fun _ => .none
    | cons y ys =>
      refine iff_of_false (by simp [itemsEqual]) fun all => ?_
      cases all 0
  | cons x xs ih =>
    cases ys with
    | nil =>
      refine iff_of_false (by simp [itemsEqual]) fun all => ?_
      cases all 0
    | cons y ys =>
      rw [itemsEqual, Bool.and_eq_true, ih]
      constructor
      · rintro ⟨first, later⟩ i
        cases i with
        | zero => exact .some first
        | succ i => exact later i
      · intro all
        refine ⟨?_, fun i => all (i + 1)⟩
        cases all 0 with
        | some first => exact first

theorem membersEqual_iff {entries : List (String × Value)} {other : Members} :
    membersEqual m budget entries other = true ↔
      ∀ key x, (key, x) ∈ entries → ∃ y, other.get? key = some y ∧ x.equalWithin m budget y = true := by
  induction entries with
  | nil => simp [membersEqual]
  | cons e entries ih =>
    obtain ⟨key, x⟩ := e
    rw [membersEqual, Bool.and_eq_true, ih]
    constructor
    · rintro ⟨first, later⟩ key' x' member
      rcases List.mem_cons.mp member with same | member
      · cases same
        split at first
        · rename_i y found
          exact ⟨y, found, first⟩
        · cases first
      · exact later key' x' member
    · intro all
      refine ⟨?_, fun key' x' member => all key' x' (List.mem_cons_of_mem _ member)⟩
      obtain ⟨y, found, first⟩ := all key x (List.mem_cons_self ..)
      rw [found]
      exact first

/-- As many members, and each of the first ones equal to one of the second: the same members on both sides. -/
theorem members_iff {first second : Members} :
    (first.size = second.size ∧ membersEqual m budget first.entries second = true) ↔
      ∀ key, Option.Rel (fun x y => x.equalWithin m budget y = true) (first.get? key) (second.get? key) := by
  rw [membersEqual_iff]
  constructor
  · rintro ⟨sizes, each⟩ key
    cases found : first.get? key with
    | some x =>
      obtain ⟨y, there, same⟩ := each key x (OrderedMap.mem_entries_iff.mpr found)
      rw [there]
      exact .some same
    | none =>
      have held : ∀ key ∈ first.keys, key ∈ second.keys := by
        intro key member
        obtain ⟨⟨_, x⟩, entry, rfl⟩ := List.mem_map.mp member
        obtain ⟨y, there, -⟩ := each _ x entry
        exact (OrderedMap.mem_keys_iff ..).mpr (by rw [there]; rfl)
      have missing : second.get? key = none := by
        rw [← Option.not_isSome_iff_eq_none, ← OrderedMap.mem_keys_iff, ← (OrderedMap.keys_perm sizes held).mem_iff,
          OrderedMap.mem_keys_iff, found]
        exact Bool.false_ne_true
      rw [missing]
      exact .none
  · intro all
    constructor
    · have same (key : String) : key ∈ first.keys ↔ key ∈ second.keys := by
        rw [OrderedMap.mem_keys_iff, OrderedMap.mem_keys_iff]
        generalize first.get? key = x, second.get? key = y, all key = both
        cases both <;> rfl
      have perm : first.keys.Perm second.keys := (List.perm_ext_iff_of_nodup first.nodup second.nodup).mpr same
      simpa [OrderedMap.keys, OrderedMap.size] using perm.length_eq
    · intro key x member
      have found := OrderedMap.mem_entries_iff.mp member
      have both := all key
      rw [found] at both
      cases there : second.get? key with
      | none =>
        rw [there] at both
        cases both
      | some y =>
        rw [there] at both
        cases both with
        | some same => exact ⟨y, rfl, same⟩

namespace Value

/-- Neither a list nor an object. -/
def isPlain : Value → Bool
  | list _ _ | object _ => false
  | _ => true

theorem part?_of_isPlain {value : Value} (plain : value.isPlain = true) (place : Place) :
    m.part? value place = none := by
  cases value <;> cases place <;> first | rfl | cases plain

theorem Alike.isPlain {a b : Value} (alike : a.Alike b) : b.isPlain = a.isPlain := by
  cases a <;> cases b <;> first | rfl | cases alike

theorem Alike.isObject {a b : Value} (alike : a.Alike b) : b.isObject = a.isObject := by
  cases a <;> cases b <;> first | rfl | cases alike

/-- Everything but a NaN is like itself. -/
theorem alike_self {a : Value} (number : ∀ x, a = float x → x.isNaN = false) : a.Alike a := by
  cases a with
  | float x =>
    show x.equals x = true
    rw [Binary64.equals_self, number x rfl]
    rfl
  | null | list _ _ | object _ => trivial
  | bool _ | int _ | text _ _ => rfl

theorem equalWithin_of_isPlain {a b : Value} (plain : a.isPlain = true) :
    a.equalWithin m budget b = true ↔ a.Alike b := by
  cases a with
  | list _ _ | object _ => cases plain
  | _ => cases b <;> simp [equalWithin, Alike]

theorem equalWithin_list {made made' : Nat} {xs ys : List Value} :
    (list made xs).equalWithin m budget (list made' ys) = true ↔
      ∀ place, Option.Rel (fun x y => x.equalWithin m (budget - 1) y = true)
        (m.part? (list made xs) place) (m.part? (list made' ys) place) := by
  rw [equalWithin, itemsEqual_iff]
  constructor
  · intro all place
    cases place with
    | member key => exact .none
    | item i => exact all i
  · exact fun all i => all (.item i)

theorem equalWithin_object {x y : ObjectId} :
    (object x).equalWithin m budget (object y) = true ↔
      x = y ∨ (0 < budget ∧ ∀ place, Option.Rel (fun x y => x.equalWithin m (budget - 1) y = true)
        (m.part? (object x) place) (m.part? (object y) place)) := by
  rw [equalWithin.eq_def]
  dsimp only
  rw [Bool.or_eq_true, beq_iff_eq]
  refine or_congr_right ?_
  cases budget with
  | zero => simp
  | succ rest =>
    simp only [Bool.and_eq_true, beq_iff_eq, members_iff, Nat.zero_lt_succ, true_and, Nat.add_sub_cancel]
    constructor
    · intro all place
      cases place with
      | member key => exact all key
      | item i => exact .none
    · exact fun all key => all (.member key)

/-- One step of the comparison. -/
theorem equalWithin_iff {a b : Value} :
    a.equalWithin m budget b = true ↔
      (a.isObject = true ∧ a = b) ∨
        (a.Alike b ∧ (a.isObject = true → 0 < budget) ∧
          ∀ place, Option.Rel (fun x y => x.equalWithin m (budget - 1) y = true) (m.part? a place) (m.part? b place)) := by
  cases plain : a.isPlain with
  | true =>
    have bare : a.isObject = false := by cases a <;> first | rfl | cases plain
    rw [equalWithin_of_isPlain plain, bare]
    constructor
    · intro alike
      refine .inr ⟨alike, nofun, fun place => ?_⟩
      rw [part?_of_isPlain plain, part?_of_isPlain (alike.isPlain.trans plain)]
      exact .none
    · rintro (⟨object, -⟩ | ⟨alike, -, -⟩)
      · cases object
      · exact alike
  | false =>
    cases a with
    | list made xs =>
      cases b with
      | list made' ys => simp [equalWithin_list, Alike, isObject]
      | _ => simp [equalWithin, Alike, isObject]
    | object x =>
      cases b with
      | object y => simp [equalWithin_object, Alike, isObject]
      | _ => simp [equalWithin, Alike, isObject]
    | _ => cases plain

/-- An object is the same as itself, whether or not it may still be opened. -/
theorem equalWithin_shared (id : ObjectId) : (object id).equalWithin m budget (object id) = true :=
  equalWithin_iff.mpr (.inl ⟨rfl, rfl⟩)

theorem sizeOf_item {made : Nat} {items : List Value} {i : Nat} {x : Value} (found : items[i]? = some x) :
    sizeOf x < sizeOf (list made items) := by
  have smaller : sizeOf x < sizeOf items := List.sizeOf_lt_of_mem (List.mem_of_getElem? found)
  rw [list.sizeOf_spec]
  omega

end Value

/-- Two values to compare, with so many levels left. -/
structure Comparison where
  budget : Nat
  left : Value
  right : Value

/-- The second comparison asks for the first: of two parts at the same place, with a level less. Objects are opened
only while levels are left. -/
def Comparison.Nested (m : Memory) (inner outer : Comparison) : Prop :=
  inner.budget = outer.budget - 1 ∧ (outer.left.isObject = true → 0 < outer.budget) ∧
    ∃ place, m.part? outer.left place = some inner.left ∧ m.part? outer.right place = some inner.right

/-- Under an object there is a level less, and under a list a smaller value. -/
theorem Comparison.nested_wellFounded (m : Memory) : WellFounded (Comparison.Nested m) := by
  let rank (c : Comparison) : Nat × Nat := (c.budget, sizeOf c.left)
  refine Subrelation.wf (r := InvImage (Prod.Lex (· < ·) (· < ·)) rank) ?_
    (InvImage.wf rank (WellFounded.prod_lex Nat.lt_wfRel.wf Nat.lt_wfRel.wf))
  rintro ⟨rest, x, y⟩ ⟨budget, a, b⟩ ⟨rfl, levels, place, found, -⟩
  show Prod.Lex _ _ (budget - 1, sizeOf x) (budget, sizeOf a)
  cases a with
  | object id =>
    have left : 0 < budget := levels rfl
    exact .left _ _ (by omega)
  | list made items =>
    cases place with
    | member key => cases found
    | item i =>
      have smaller : sizeOf x < sizeOf (Value.list made items) := Value.sizeOf_item found
      rw [Prod.lex_def]
      omega
  | _ => cases place <;> cases found

/-- What holds of an object and itself, and of values alike whose parts are equal and fulfil it with a level less,
holds of equal values. -/
@[elab_as_elim]
theorem Value.equalWithin_induction {motive : Nat → Value → Value → Prop}
    (shared : ∀ budget id, motive budget (.object id) (.object id))
    (opened : ∀ budget a b, a.Alike b → (a.isObject = true → 0 < budget) →
      (∀ place, Option.Rel (fun x y => x.equalWithin m (budget - 1) y = true ∧ motive (budget - 1) x y)
        (m.part? a place) (m.part? b place)) → motive budget a b)
    {budget : Nat} {a b : Value} (equal : a.equalWithin m budget b = true) : motive budget a b := by
  suffices all : ∀ c : Comparison, c.left.equalWithin m c.budget c.right = true → motive c.budget c.left c.right from
    all ⟨budget, a, b⟩ equal
  intro c
  induction c using (Comparison.nested_wellFounded m).induction with
  | _ c ih =>
    intro equal
    rcases equalWithin_iff.mp equal with ⟨object, same⟩ | ⟨alike, levels, parts⟩
    · rw [← same]
      cases left : c.left with
      | object id => exact shared c.budget id
      | _ =>
        rw [left] at object
        cases object
    · refine opened c.budget c.left c.right alike levels fun place => ?_
      refine rel_imp (parts place) fun x y left right equal => ⟨equal, ?_⟩
      exact ih ⟨c.budget - 1, x, y⟩ ⟨rfl, levels, place, left, right⟩ equal

end ModuleLoader
