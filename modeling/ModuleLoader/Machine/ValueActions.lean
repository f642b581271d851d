import ModuleLoader.Machine.Evaluation

/-! Actions on values. They change members of objects, variables and counters; the loader is left
as it is. -/
namespace ModuleLoader

def ValueAction.name : ValueAction → String
  | assign .. => "let"
  | nest .. => "nest"
  | display _ => "show"
  | equal .. => "eq"
  | identical .. => "same"
  | insert .. => "insert"
  | member .. => "member"
  | kind _ => "kind"
  | put .. => "put"
  | dropKey .. => "drop_key"
  | hasKey .. => "has_key"
  | keys _ => "keys"
  | compareObjects .. => "ieq"
  | setMember .. => "set"
  | bump .. => "bump"
  | note _ => "note"

def Reply.ofOption {α : Type} (f : α → Reply) : Option α → Reply
  | some a => f a
  | none => .nothing

namespace World

/-- Wraps a value again and again. -/
def wrap (m : Memory) (inLists : Bool) : Nat → Value → Memory × Value
  | 0, value => (m, value)
  | n + 1, value =>
    let (m, outer) :=
      if inLists then m.newList [value] else m.newObject (.ofList [("k", value)])
    wrap m inLists n outer

/-- What an action does to an object, or the answer that there is none. -/
def onObject (w : World) (value : Value) (f : World → ObjectId → World × Reply) : World × Reply :=
  match value with
  | .object id => f w id
  | _ => (w, .text "not an object")

/-- The world after an action on values, and the answer to log if there is one. -/
def actOnValues (w : World) (site : Site) : ValueAction → World × Option Reply
  | .assign value into =>
    let (w, value) := w.eval site value
    (w.store into value, none)
  | .nest value times inLists into =>
    let (w, value) := w.eval site value
    let (memory, value) := wrap w.memory inLists times value
    ({ w with memory }.store into value, none)
  | .display value =>
    let (w, value) := w.eval site value
    (w, some (w.display value))
  | .equal left right =>
    let (w, left) := w.eval site left
    let (w, right) := w.eval site right
    (w, some (.flag (left.equal w.memory right)))
  | .identical left right =>
    let (w, left) := w.eval site left
    let (w, right) := w.eval site right
    (w, some (.flag (left.identical w.memory right)))
  | .insert target key value =>
    let (w, target) := w.eval site target
    let (w, value) := w.eval site value
    let (memory, done) := w.memory.insert target key value
    ({ w with memory }, some (.flag done))
  | .member target key into =>
    let (w, target) := w.eval site target
    let found := w.memory.member? target key
    (w.store into (found.getD .null), some (w.displayOption found))
  | .kind target =>
    let (w, v) := w.eval site target
    (w, some (.many [.flag v.isNull, .ofOption .flag v.bool?, .ofOption .number v.int?,
      .ofOption .text v.text?, .flag v.isObject]))
  | .put target key value =>
    let (w, target) := w.eval site target
    let (w, value) := w.eval site value
    let (w, reply) := w.onObject target fun w id =>
      let old := (w.memory.members id).get? key
      let w := { w with memory := w.memory.put id key value }
      (w, w.displayOption old)
    (w, some reply)
  | .dropKey target key =>
    let (w, target) := w.eval site target
    let (w, reply) := w.onObject target fun w id =>
      let old := (w.memory.members id).get? key
      let w := { w with memory := w.memory.remove id key }
      (w, w.displayOption old)
    (w, some reply)
  | .hasKey target key =>
    let (w, target) := w.eval site target
    let (w, reply) := w.onObject target fun w id =>
      (w, .flag ((w.memory.members id).contains key))
    (w, some reply)
  | .keys target =>
    let (w, target) := w.eval site target
    let (w, reply) := w.onObject target fun w id =>
      let members := w.memory.members id
      (w, .many [.many (members.keys.map .text), .number members.size, .flag members.isEmpty])
    (w, some reply)
  | .compareObjects left right =>
    let (w, left) := w.eval site left
    let (w, right) := w.eval site right
    let (w, reply) := w.onObject left fun w x => w.onObject right fun w y =>
      (w, .many [.flag (left.equal w.memory right), .flag (x = y), w.display left])
    (w, some reply)
  | .setMember key value =>
    let (w, value) := w.eval site value
    let handed := (site.context.map Context.handed).getD .null
    let (memory, done) := w.memory.insert handed key value
    ({ w with memory }, some (.flag done))
  | .bump counter into =>
    let n := (w.counters.get? counter).getD 0 + 1
    let w := { w with counters := w.counters.insert counter n }
    (w.store into (.int n), some (.number n))
  | .note text => (w, some (.text text))

end World

end ModuleLoader
