import ModuleLoader.Machine.World

/-! Values and registrations from their written forms. -/
namespace ModuleLoader

/-- What names in an expression stand for. -/
structure Scope where
  vars : OrderedMap String Value
  handed : Value
  current : Value

mutual

def Expr.eval (scope : Scope) (m : Memory) : Expr → Memory × Value
  | .null => (m, .null)
  | .bool b => (m, .bool b)
  | .int n => (m, .int n)
  | .float x => (m, .float x)
  | .text s => m.newText s
  | .list items =>
    let (m, values) := evalItems scope m items
    m.newList values
  | .object members =>
    let (m, values) := evalMembers scope m members
    m.newObject (.ofList values)
  | .var name => (m, (scope.vars.get? name).getD .null)
  | .handed => (m, scope.handed)
  | .current => (m, scope.current)

def evalItems (scope : Scope) (m : Memory) : List Expr → Memory × List Value
  | [] => (m, [])
  | e :: rest =>
    let (m, value) := e.eval scope m
    let (m, values) := evalItems scope m rest
    (m, value :: values)

def evalMembers (scope : Scope) (m : Memory) :
    List (String × Expr) → Memory × List (String × Value)
  | [] => (m, [])
  | (key, e) :: rest =>
    let (m, value) := e.eval scope m
    let (m, values) := evalMembers scope m rest
    (m, (key, value) :: values)

end

def FactoryDraft.eval (scope : Scope) (m : Memory) : FactoryDraft → Memory × Factory
  | .function body source => (m, .function body source)
  | .value e =>
    let (m, v) := e.eval scope m
    (m, .value v)

def Draft.eval (scope : Scope) (m : Memory) : Draft → Memory × Registration
  | .mk id dependencies factory =>
    let (m, factory) := factory.eval scope m
    (m, { id, dependencies, factory })

namespace World

/-- Outside of a body nothing is handed over and nothing is exported. -/
def scope (w : World) (site : Site) : Scope where
  vars := w.vars
  handed := (site.context.map Context.handed).getD .null
  current := (site.context.bind fun c => (w.loader.record c.record).exports).getD .null

def eval (w : World) (site : Site) (e : Expr) : World × Value :=
  let (memory, value) := e.eval (w.scope site) w.memory
  ({ w with memory }, value)

def evalDraft (w : World) (site : Site) (draft : Draft) : World × Registration :=
  let (memory, registration) := draft.eval (w.scope site) w.memory
  ({ w with memory }, registration)

end World

end ModuleLoader
