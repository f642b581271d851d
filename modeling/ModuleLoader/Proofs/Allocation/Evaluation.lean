import ModuleLoader.Proofs.Meaning.Body

/-! Objects and members that have been made. Whatever is written down comes to a value that has been made, and
so do the members that are put into objects. -/
namespace ModuleLoader

/-- A value stands for something that has been made. -/
def Memory.Has (m : Memory) : Value → Prop
  | .object id => id.index < m.objects.size
  | _ => True

/-- All members of objects have been made. -/
def Memory.Whole (m : Memory) : Prop := ∀ id key value, (m.members id).get? key = some value → m.Has value

/-- The object that a value is. -/
def Value.object? : Value → Option ObjectId
  | .object id => some id
  | _ => none

theorem Value.of_object? {value : Option Value} {id : ObjectId} (object : value.bind object? = some id) :
    value = some (.object id) := by
  obtain ⟨v, rfl, object⟩ := Option.bind_eq_some_iff.mp object
  cases v with
  | object x =>
    cases object
    rfl
  | _ => cases object

namespace Memory

/-- What becomes of a member: of which object, under which name, and what it is then, if it is not removed. -/
abbrev Change := ObjectId × String × Option Value

/-- What a change makes of a certain member, if that is the one. -/
def Change.of? (id : ObjectId) (key : String) (change : Change) : Option (Option Value) :=
  if change.1 = id ∧ change.2.1 = key then some change.2.2 else none

def changed (m : Memory) : Option Change → Memory
  | none => m
  | some (id, key, some value) => m.put id key value
  | some (id, key, none) => m.remove id key

/-- Objects may have been made, and then one member has been changed, or none. -/
def Changes (m : Memory) (change : Option Change) (m' : Memory) : Prop :=
  ∃ middle, m.Extends middle ∧ m' = middle.changed change

variable {m m' : Memory}

theorem Has.mono (grows : m.objects.size ≤ m'.objects.size) {value : Value} (has : m.Has value) : m'.Has value := by
  cases value with
  | object id => exact Nat.lt_of_lt_of_le has grows
  | _ => trivial

theorem Has.getD {value : Option Value} (has : ∀ v, value = some v → m.Has v) : m.Has (value.getD .null) := by
  cases value with
  | none => trivial
  | some v => exact has v rfl

/-- No object has come in and no member has been changed. -/
theorem Whole.of_objects (whole : m.Whole) (objects : m'.objects = m.objects) : m'.Whole := by
  have size : m.objects.size ≤ m'.objects.size := Nat.le_of_eq (congrArg Table.size objects.symm)
  intro id key value held
  rw [members, objects] at held
  exact (whole id key value held).mono size

theorem Whole.newObject (whole : m.Whole) {members : Members}
    (has : ∀ key value, members.get? key = some value → m.Has value) : (m.newObject members).1.Whole := by
  have grows := (Extends.newObject m members).size
  intro id key value held
  rw [Memory.members, Memory.newObject, Table.get_push] at held
  split at held
  · exact (has key value held).mono grows
  · exact (whole id key value held).mono grows

theorem has_newObject (m : Memory) (members : Members) : (m.newObject members).1.Has (m.newObject members).2 :=
  Nat.lt_of_lt_of_eq (Nat.lt_succ_self _) (m.objects.size_push members).symm

/-- Members are changed in place. -/
theorem Whole.modify (whole : m.Whole) (id : ObjectId) {f : Members → Members}
    (has : ∀ key value, (f (m.members id)).get? key = some value → m.Has value) :
    Whole { m with objects := m.objects.modify id.index f } := by
  have grows : m.objects.size ≤ (m.objects.modify id.index f).size := Nat.le_of_eq (m.objects.size_modify ..).symm
  intro x key value held
  rw [members, Table.get_modify] at held
  split at held
  · rename_i here
    have same : x = id := congrArg ObjectId.mk here.1.symm
    exact (has key value (same ▸ held)).mono grows
  · exact (whole x key value held).mono grows

theorem Whole.put (whole : m.Whole) (id : ObjectId) (key : String) {value : Value} (has : m.Has value) :
    (m.put id key value).Whole := by
  refine whole.modify id fun k v held => ?_
  rw [OrderedMap.get?_insert] at held
  split at held
  · cases held
    exact has
  · exact whole id k v held

theorem Whole.remove (whole : m.Whole) (id : ObjectId) (key : String) : (m.remove id key).Whole := by
  refine whole.modify id fun k v held => ?_
  exact whole id k v (OrderedMap.get?_erase_eq_some.mp held).2

theorem Whole.member? (whole : m.Whole) {target : Value} {key : String} {value : Value}
    (held : m.member? target key = some value) : m.Has value := by
  cases target with
  | object id => exact whole id key value held
  | _ => cases held

theorem Changes.of_extends (extends_ : m.Extends m') : m.Changes none m' := ⟨m', extends_, rfl⟩

theorem insert_changed (m : Memory) (target : Value) (key : String) (value : Value) :
    (m.insert target key value).1 = m.changed (target.object?.map fun id => (id, key, some value)) := by
  cases target <;> rfl

theorem size_changed (m : Memory) (change : Option Change) :
    (m.changed change).objects.size = m.objects.size := by
  unfold changed
  split
  · rfl
  · exact m.objects.size_modify ..
  · exact m.objects.size_modify ..

theorem Changes.grows {change : Option Change} (changes : m.Changes change m') :
    m.objects.size ≤ m'.objects.size := by
  obtain ⟨middle, more, rfl⟩ := changes
  exact Nat.le_trans more.size (Nat.le_of_eq (middle.size_changed change).symm)

/-- The members of an object that has been made are what they were, but for the one that is changed. -/
theorem Changes.member? {change : Option Change} (changes : m.Changes change m') {id : ObjectId}
    (has : m.Has (.object id)) (key : String) : m'.member? (.object id) key =
      (change.bind (Change.of? id key)).getD
        (m.member? (.object id) key) := by
  obtain ⟨middle, more, rfl⟩ := changes
  have there : id.index < middle.objects.size := Nat.lt_of_lt_of_le has more.size
  have same : m.member? (.object id) key = middle.member? (.object id) key :=
    congrArg (fun members => OrderedMap.get? members key) (more.members id has).symm
  have modified (x : ObjectId) (f : Members → Members) :
      Memory.member? { middle with objects := middle.objects.modify x.index f } (.object id) key =
        if x = id then (f (middle.members id)).get? key else middle.member? (.object id) key := by
    rw [Memory.member?, Memory.members, Table.get_modify]
    by_cases own : x = id
    · rw [if_pos own, if_pos ⟨congrArg ObjectId.index own, there⟩]
      rfl
    · rw [if_neg own, if_neg fun here => own (congrArg ObjectId.mk here.1)]
      rfl
  rw [same]
  unfold changed
  split
  · rfl
  · rename_i x k value
    rw [put, modified, Option.bind_some, OrderedMap.get?_insert]
    by_cases own : x = id <;> by_cases named : k = key <;> simp [own, named, Memory.member?, Change.of?]
  · rename_i x k
    rw [remove, modified, Option.bind_some, OrderedMap.get?_erase]
    by_cases own : x = id <;> by_cases named : k = key <;> simp [own, named, Memory.member?, Change.of?]

theorem Whole.changed (whole : m.Whole) {change : Option Change}
    (has : ∀ id key value, change = some (id, key, some value) → m.Has value) : (m.changed change).Whole := by
  unfold Memory.changed
  split
  · exact whole
  · rename_i id key value
    exact whole.put id key (has id key value rfl)
  · exact whole.remove _ _

end Memory

theorem no_members {m : Memory} (key : String) (value : Value)
    (held : (∅ : Members).get? key = some value) : m.Has value := by
  rw [OrderedMap.get?_empty] at held
  cases held

theorem OrderedMap.get?_ofList {κ ν : Type} [DecidableEq κ] {entries : List (κ × ν)} {key : κ} {value : ν}
    (held : (ofList entries).get? key = some value) : (key, value) ∈ entries := by
  have among (entries : List (κ × ν)) (m : OrderedMap κ ν)
      (held : (entries.foldl (fun m e => m.insert e.1 e.2) m).get? key = some value) :
      (key, value) ∈ entries ∨ m.get? key = some value := by
    induction entries generalizing m with
    | nil => exact .inr held
    | cons entry rest ih =>
      rcases ih _ held with later | first
      · exact .inl (List.mem_cons_of_mem _ later)
      · rw [get?_insert] at first
        split at first
        · rename_i same
          cases first
          exact .inl (same ▸ List.mem_cons_self ..)
        · exact .inr first
  refine (among entries ∅ held).resolve_right fun absent => ?_
  rw [get?_empty] at absent
  cases absent

/-- Names in expressions stand for what has been made. -/
structure Scope.Whole (scope : Scope) (m : Memory) : Prop where
  vars : ∀ name value, scope.vars.get? name = some value → m.Has value
  handed : m.Has scope.handed
  current : m.Has scope.current

section

variable {scope : Scope}

theorem Scope.Whole.mono {m m' : Memory} (grows : m.objects.size ≤ m'.objects.size) (whole : scope.Whole m) : scope.Whole m' :=
  ⟨fun name value held => (whole.vars name value held).mono grows, whole.handed.mono grows,
    whole.current.mono grows⟩

mutual

theorem Expr.eval_whole (e : Expr) {m : Memory} (memory : m.Whole) (whole : scope.Whole m) :
    (e.eval scope m).1.Whole ∧ (e.eval scope m).1.Has (e.eval scope m).2 := by
  cases e with
  | null | bool | int | float =>
    rw [Expr.eval]
    exact ⟨memory, trivial⟩
  | text s =>
    rw [Expr.eval]
    exact ⟨memory.of_objects rfl, trivial⟩
  | var name =>
    rw [Expr.eval]
    exact ⟨memory, .getD (whole.vars name)⟩
  | handed =>
    rw [Expr.eval]
    exact ⟨memory, whole.handed⟩
  | current =>
    rw [Expr.eval]
    exact ⟨memory, whole.current⟩
  | list items =>
    rw [Expr.eval]
    exact ⟨(evalItems_whole items memory whole).of_objects rfl, trivial⟩
  | object members =>
    rw [Expr.eval]
    obtain ⟨made, each⟩ := evalMembers_whole members memory whole
    exact ⟨made.newObject fun key value held => each (key, value) (OrderedMap.get?_ofList held),
      Memory.has_newObject _ _⟩

theorem evalItems_whole (items : List Expr) {m : Memory} (memory : m.Whole) (whole : scope.Whole m) :
    (evalItems scope m items).1.Whole := by
  cases items with
  | nil =>
    rw [evalItems]
    exact memory
  | cons e rest =>
    rw [evalItems]
    exact evalItems_whole rest (e.eval_whole memory whole).1 (whole.mono (e.eval_extends scope m).size)

theorem evalMembers_whole (members : List (String × Expr)) {m : Memory} (memory : m.Whole)
    (whole : scope.Whole m) :
    (evalMembers scope m members).1.Whole ∧
      ∀ entry ∈ (evalMembers scope m members).2, (evalMembers scope m members).1.Has entry.2 := by
  match members with
  | [] =>
    rw [evalMembers]
    exact ⟨memory, List.forall_mem_nil _⟩
  | (key, e) :: rest =>
    rw [evalMembers]
    obtain ⟨made, first⟩ := e.eval_whole memory whole
    obtain ⟨all, each⟩ := evalMembers_whole rest made (whole.mono (e.eval_extends scope m).size)
    exact ⟨all, List.forall_mem_cons.mpr ⟨first.mono (evalMembers_extends scope rest _).size, each⟩⟩

end

end

end ModuleLoader
