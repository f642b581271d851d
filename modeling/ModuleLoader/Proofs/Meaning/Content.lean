import ModuleLoader.Machine.ValueActions
import Mathlib.Logic.Function.Basic

/-! What values hold, whichever evaluation has made them. A value goes on to hold it as long as no object is
changed. -/
namespace ModuleLoader

/-- Values without identity: objects are there with their members. -/
inductive Content where
  | null
  | bool (b : Bool)
  | int (n : Int)
  | float (x : Binary64)
  | text (s : String)
  | list (items : List Content)
  | object (members : List (String × Content))
deriving Inhabited

namespace Content

def member? (c : Content) (key : String) : Option Content :=
  match c with
  | object members => OrderedMap.lookup key members
  | _ => none

def wrap (inLists : Bool) : Nat → Content → Content
  | 0, c => c
  | n + 1, c => wrap inLists n (if inLists then list [c] else object [("k", c)])

end Content

mutual

/-- A value holds a content. -/
inductive Means (m : Memory) : Value → Content → Prop where
  | null : Means m .null .null
  | bool (b : Bool) : Means m (.bool b) (.bool b)
  | int (n : Int) : Means m (.int n) (.int n)
  | float (x : Binary64) : Means m (.float x) (.float x)
  | text (made : Nat) (s : String) : Means m (.text made s) (.text s)
  | list (made : Nat) {items : List Value} {contents : List Content} (all : MeanAll m items contents) :
      Means m (.list made items) (.list contents)
  | object (id : ObjectId) {members : List (String × Content)} (there : id.index < m.objects.size)
      (each : MeanEach m (m.members id).entries members) : Means m (.object id) (.object members)

inductive MeanAll (m : Memory) : List Value → List Content → Prop where
  | nil : MeanAll m [] []
  | cons {v : Value} {c : Content} {vs : List Value} {cs : List Content} (head : Means m v c)
      (rest : MeanAll m vs cs) : MeanAll m (v :: vs) (c :: cs)

/-- The members have the same names, in the same order. -/
inductive MeanEach (m : Memory) : List (String × Value) → List (String × Content) → Prop where
  | nil : MeanEach m [] []
  | cons (key : String) {v : Value} {c : Content} {vs : List (String × Value)}
      {cs : List (String × Content)} (head : Means m v c) (rest : MeanEach m vs cs) :
      MeanEach m ((key, v) :: vs) ((key, c) :: cs)

end

/-- A value holds a content, or neither is there. -/
abbrev Holds (m : Memory) : Option Value → Option Content → Prop := Option.Rel (Means m)

/-- Objects may have been made, and none was changed. -/
structure Memory.Extends (m m' : Memory) : Prop where
  size : m.objects.size ≤ m'.objects.size
  members : ∀ id : ObjectId, id.index < m.objects.size → m'.members id = m.members id

namespace Memory.Extends

theorem refl (m : Memory) : Extends m m := ⟨Nat.le_refl _, fun _ _ => rfl⟩

theorem trans {a b c : Memory} (ab : Extends a b) (bc : Extends b c) : Extends a c :=
  ⟨Nat.le_trans ab.size bc.size, fun id there =>
    (bc.members id (Nat.lt_of_lt_of_le there ab.size)).trans (ab.members id there)⟩

theorem newText (m : Memory) (s : String) : Extends m (m.newText s).1 := ⟨Nat.le_refl _, fun _ _ => rfl⟩

theorem newList (m : Memory) (items : List Value) : Extends m (m.newList items).1 :=
  ⟨Nat.le_refl _, fun _ _ => rfl⟩

theorem newObject (m : Memory) (members : Members) : Extends m (m.newObject members).1 := by
  refine ⟨Nat.le_of_lt (Nat.lt_of_lt_of_eq (Nat.lt_succ_self _) (m.objects.size_push members).symm), ?_⟩
  intro id there
  exact (m.objects.get_push members id.index).trans (if_neg (Nat.ne_of_lt there))

theorem wrap (m : Memory) (inLists : Bool) (times : Nat) (value : Value) :
    Extends m (World.wrap m inLists times value).1 := by
  induction times generalizing m value with
  | zero => exact .refl m
  | succ times ih =>
    rw [World.wrap]
    cases inLists
    · exact (newObject m (.ofList [("k", value)])).trans (ih _ _)
    · exact (newList m [value]).trans (ih _ _)

end Memory.Extends

mutual

theorem Means.mono {m m' : Memory} (ext : m.Extends m') {v : Value} {c : Content} :
    Means m v c → Means m' v c
  | .null => .null
  | .bool b => .bool b
  | .int n => .int n
  | .float x => .float x
  | .text made s => .text made s
  | .list made all => .list made (all.mono ext)
  | .object id there each =>
    .object id (Nat.lt_of_lt_of_le there ext.size) (by rw [ext.members id there]; exact each.mono ext)

theorem MeanAll.mono {m m' : Memory} (ext : m.Extends m') {vs : List Value} {cs : List Content} :
    MeanAll m vs cs → MeanAll m' vs cs
  | .nil => .nil
  | .cons head rest => .cons (head.mono ext) (rest.mono ext)

theorem MeanEach.mono {m m' : Memory} (ext : m.Extends m') {vs : List (String × Value)}
    {cs : List (String × Content)} : MeanEach m vs cs → MeanEach m' vs cs
  | .nil => .nil
  | .cons key head rest => .cons key (head.mono ext) (rest.mono ext)

end

theorem Holds.mono {m m' : Memory} (ext : m.Extends m') {v : Option Value} {c : Option Content}
    (holds : Holds m v c) : Holds m' v c := by
  cases holds with
  | some means => exact .some (means.mono ext)
  | none => exact .none

mutual

/-- A value holds one content only. -/
theorem Means.unique {m : Memory} {v : Value} {c c' : Content} :
    Means m v c → Means m v c' → c = c'
  | .null, .null | .bool _, .bool _ | .int _, .int _ | .float _, .float _ | .text .., .text .. => rfl
  | .list _ all, .list _ all' => congrArg Content.list (all.unique all')
  | .object _ _ each, .object _ _ each' => congrArg Content.object (each.unique each')

theorem MeanAll.unique {m : Memory} {vs : List Value} {cs cs' : List Content} :
    MeanAll m vs cs → MeanAll m vs cs' → cs = cs'
  | .nil, .nil => rfl
  | .cons head rest, .cons head' rest' => by rw [head.unique head', rest.unique rest']

theorem MeanEach.unique {m : Memory} {vs : List (String × Value)} {cs cs' : List (String × Content)} :
    MeanEach m vs cs → MeanEach m vs cs' → cs = cs'
  | .nil, .nil => rfl
  | .cons _ head rest, .cons _ head' rest' => by rw [head.unique head', rest.unique rest']

end

namespace MeanEach

variable {m : Memory} {vs : List (String × Value)} {cs : List (String × Content)}

theorem place (each : MeanEach m vs cs) (key : String) {v : Value} {c : Content} (means : Means m v c) :
    MeanEach m (OrderedMap.place key v vs) (OrderedMap.place key c cs) := by
  induction vs generalizing cs with
  | nil =>
    cases each
    exact .cons key means .nil
  | cons entry vs ih =>
    cases each with
    | cons k head rest =>
      rw [OrderedMap.place, OrderedMap.place]
      split
      · exact .cons k means rest
      · exact .cons k head (ih rest)

theorem ofList (each : MeanEach m vs cs) :
    MeanEach m (OrderedMap.ofList vs).entries (OrderedMap.ofList cs).entries := by
  have further {vs : List (String × Value)} {cs : List (String × Content)} (each : MeanEach m vs cs)
      (before : Members) (held : OrderedMap String Content) (same : MeanEach m before.entries held.entries) :
      MeanEach m (vs.foldl (fun m e => m.insert e.1 e.2) before).entries
        (cs.foldl (fun m e => m.insert e.1 e.2) held).entries := by
    induction vs generalizing cs before held with
    | nil =>
      cases each
      exact same
    | cons v vs ih =>
      cases each with
      | cons key head rest => exact ih rest (before.insert key _) (held.insert key _) (same.place key head)
  exact further each ∅ ∅ .nil

theorem lookup (each : MeanEach m vs cs) (key : String) :
    Holds m (OrderedMap.lookup key vs) (OrderedMap.lookup key cs) := by
  induction vs generalizing cs with
  | nil =>
    cases each
    exact .none
  | cons entry vs ih =>
    cases each with
    | cons k head rest =>
      rw [OrderedMap.lookup, OrderedMap.lookup]
      split
      · exact .some head
      · exact ih rest

end MeanEach

theorem Means.member? {m : Memory} {v : Value} {c : Content} (means : Means m v c) (key : String) :
    Holds m (m.member? v key) (c.member? key) := by
  cases means with
  | object id there each => exact each.lookup key
  | _ => exact .none

theorem Holds.getD {m : Memory} {v : Option Value} {c : Option Content} (holds : Holds m v c) :
    Means m (v.getD .null) (c.getD .null) := by
  cases holds with
  | some means => exact means
  | none => exact .null

theorem Means.newObject (m : Memory) {members : Members} {cs : List (String × Content)}
    (each : MeanEach m members.entries cs) :
    Means (m.newObject members).1 (m.newObject members).2 (.object cs) := by
  have made : (m.newObject members).1.members ⟨m.objects.size⟩ = members :=
    (m.objects.get_push members m.objects.size).trans (if_pos rfl)
  refine .object _ (Nat.lt_of_lt_of_eq (Nat.lt_succ_self _) (m.objects.size_push members).symm) ?_
  rw [made]
  exact each.mono (.newObject m members)

theorem Means.wrap {m : Memory} {v : Value} {c : Content} (means : Means m v c) (inLists : Bool)
    (times : Nat) :
    Means (World.wrap m inLists times v).1 (World.wrap m inLists times v).2 (c.wrap inLists times) := by
  induction times generalizing m v c with
  | zero => exact means
  | succ times ih =>
    rw [World.wrap, Content.wrap]
    cases inLists
    · have each : MeanEach m (.ofList [("k", v)] : Members).entries [("k", c)] := .cons "k" means .nil
      exact ih (Means.newObject m each)
    · exact ih (.list _ (.cons (means.mono (.newList m [v])) .nil))

end ModuleLoader
