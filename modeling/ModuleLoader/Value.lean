import ModuleLoader.Binary64
import ModuleLoader.OrderedMap
import ModuleLoader.Table

/-! Exported values. Objects are shared and change in place, so a value holds only the identity of
an object and a memory holds the members. -/
namespace ModuleLoader

/-- The identity of an interface object. -/
structure ObjectId where
  index : Nat
deriving DecidableEq, Inhabited

/-- Texts and lists carry the number of the evaluation that made them, their identity. -/
inductive Value where
  | null
  | bool (b : Bool)
  | int (n : Int)
  | float (x : Binary64)
  | text (made : Nat) (s : String)
  | list (made : Nat) (items : List Value)
  | object (id : ObjectId)
deriving Inhabited

/-- The members of an object, in the order in which their names first came in. -/
abbrev Members := OrderedMap String Value

/-- All objects made so far, and the number for the next text or list. -/
structure Memory where
  objects : Table Members
  made : Nat

namespace Memory

def empty : Memory := ⟨∅, 0⟩

instance : Inhabited Memory := ⟨empty⟩

def members (m : Memory) (id : ObjectId) : Members := m.objects.get id.index

/-- A new object with the given members. -/
def newObject (m : Memory) (members : Members) : Memory × Value :=
  let id : ObjectId := ⟨m.objects.size⟩
  ({ m with objects := m.objects.push members }, .object id)

def newText (m : Memory) (s : String) : Memory × Value :=
  ({ m with made := m.made + 1 }, .text m.made s)

def newList (m : Memory) (items : List Value) : Memory × Value :=
  ({ m with made := m.made + 1 }, .list m.made items)

/-- Sets a member in place. -/
def put (m : Memory) (id : ObjectId) (key : String) (value : Value) : Memory :=
  { m with objects := m.objects.modify id.index (·.insert key value) }

/-- Removes a member in place. -/
def remove (m : Memory) (id : ObjectId) (key : String) : Memory :=
  { m with objects := m.objects.modify id.index (·.erase key) }

/-- A member of an object; nothing for any other value. -/
def member? (m : Memory) (value : Value) (key : String) : Option Value :=
  match value with
  | .object id => (m.members id).get? key
  | _ => none

/-- Sets a member if the value is an object, and says whether it is. -/
def insert (m : Memory) (value : Value) (key : String) (new : Value) : Memory × Bool :=
  match value with
  | .object id => (m.put id key new, true)
  | _ => (m, false)

end Memory

namespace Value

def isNull : Value → Bool
  | .null => true
  | _ => false

def isObject : Value → Bool
  | .object _ => true
  | _ => false

def bool? : Value → Option Bool
  | .bool b => some b
  | _ => none

def int? : Value → Option Int
  | .int n => some n
  | _ => none

def text? : Value → Option String
  | .text _ s => some s
  | _ => none

end Value

end ModuleLoader
