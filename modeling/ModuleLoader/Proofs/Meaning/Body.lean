import ModuleLoader.Machine.Actions
import ModuleLoader.Proofs.Meaning.Content

/-! Bodies that compute what they give back from what they read. What a body means is a function of what its
dependencies hold, and running the body comes to that. -/
namespace ModuleLoader

/-! What expressions, actions and bodies come to. -/

mutual

/-- What an expression comes to, given what variables hold, where no interface is handed over. -/
def Expr.content (env : String → Content) : Expr → Content
  | .null | .handed | .current => .null
  | .bool b => .bool b
  | .int n => .int n
  | .float x => .float x
  | .text s => .text s
  | .list items => .list (contents env items)
  | .object members => .object (OrderedMap.ofList (memberContents env members)).entries
  | .var name => env name

def Expr.contents (env : String → Content) : List Expr → List Content
  | [] => []
  | e :: rest => e.content env :: contents env rest

def Expr.memberContents (env : String → Content) : List (String × Expr) → List (String × Content)
  | [] => []
  | (key, e) :: rest => (key, e.content env) :: memberContents env rest

end

mutual

/-- An expression uses only variables that are bound, and no interface of a running body unless there is
none. -/
def Expr.isPure (bound : String → Bool) (bare : Bool) : Expr → Bool
  | .null | .bool _ | .int _ | .float _ | .text _ => true
  | .list items => allPure bound bare items
  | .object members => membersPure bound bare members
  | .var name => bound name
  | .handed | .current => bare

def Expr.allPure (bound : String → Bool) (bare : Bool) : List Expr → Bool
  | [] => true
  | e :: rest => e.isPure bound bare && allPure bound bare rest

def Expr.membersPure (bound : String → Bool) (bare : Bool) : List (String × Expr) → Bool
  | [] => true
  | (_, e) :: rest => e.isPure bound bare && membersPure bound bare rest

end

/-- A variable gets a content, if one is named. -/
def Content.bind (env : String → Content) (into : Option String) (c : Content) : String → Content :=
  match into with
  | some name => Function.update env name c
  | none => env

namespace ValueAction

/-- The variable that an action writes. -/
def into? : ValueAction → Option String
  | assign _ into | nest _ _ _ into | member _ _ into | bump _ into => into
  | _ => none

/-- What variables hold after an action. -/
def content (env : String → Content) : ValueAction → String → Content
  | assign e into => Content.bind env into (e.content env)
  | nest e times inLists into => Content.bind env into ((e.content env).wrap inLists times)
  | member target key into =>
    Content.bind env into (((target.content env).member? key).getD .null)
  | _ => env

/-- Actions that change no object. -/
def looks : ValueAction → Bool
  | insert .. | put .. | dropKey .. | setMember .. => false
  | _ => true

/-- Actions that change nothing but a variable, which they compute from others. -/
def isPure (bound : List String) : ValueAction → Bool
  | assign e _ | nest e _ _ _ | member e _ _ => e.isPure bound.contains false
  | insert .. | put .. | dropKey .. | setMember .. | bump .. => false
  | _ => true

theorem looks_of_pure {bound : List String} {a : ValueAction} (pure : a.isPure bound = true) :
    a.looks = true := by
  cases a <;> first | rfl | cases pure

end ValueAction

namespace Script

/-- Bodies that read dependencies and compute, and give a value back in the end. `bound` are the variables
that have been written. -/
def isPure (bound : List String) : Script → Bool
  | .get _ into none :: rest => isPure (into.toList ++ bound) rest
  | .value a :: rest => a.isPure bound && isPure (a.into?.toList ++ bound) rest
  | .giveBack e :: _ => e.isPure bound.contains false
  | _ => false

/-- What a body gives back if its dependencies hold what `read` says. A dependency that is not there reads
as null. -/
def content (read : String → Option Content) (env : String → Content) : Script → Option Content
  | .get id into _ :: rest => content read (Content.bind env into ((read id).getD .null)) rest
  | .value a :: rest => content read (a.content env) rest
  | .giveBack e :: _ => some (e.content env)
  | _ => none

/-- A body that gives a value back comes to something. -/
theorem content_of_pure {bound : List String} {body : Script} (pure : isPure bound body = true)
    (read : String → Option Content) (env : String → Content) : ∃ c, content read env body = some c := by
  induction body generalizing bound env with
  | nil => cases pure
  | cons action rest ih =>
    cases action with
    | get id into key =>
      cases key with
      | none => exact ih pure _
      | some key => cases pure
    | value a =>
      rw [isPure, Bool.and_eq_true] at pure
      exact ih pure.2 _
    | giveBack e => exact ⟨_, rfl⟩
    | _ => cases pure

/-- The identifiers that a body asks for. -/
def reads (body : Script) : List String :=
  body.filterMap fun | .get id _ _ => some id | _ => none

/-- The variables that a body writes. -/
def writes (body : Script) : List String :=
  body.filterMap fun | .get _ into _ => into | .value a => a.into? | _ => none

end Script

/-! Evaluating comes to that. -/

mutual

theorem Expr.eval_extends (scope : Scope) (e : Expr) (m : Memory) : m.Extends (e.eval scope m).1 := by
  cases e with
  | null | bool | int | float | var | handed | current =>
    rw [Expr.eval]
    exact .refl m
  | text s =>
    rw [Expr.eval]
    exact .newText m s
  | list items =>
    rw [Expr.eval]
    exact (evalItems_extends scope items m).trans (.newList _ _)
  | object members =>
    rw [Expr.eval]
    exact (evalMembers_extends scope members m).trans (.newObject _ _)

theorem evalItems_extends (scope : Scope) (items : List Expr) (m : Memory) :
    m.Extends (evalItems scope m items).1 := by
  cases items with
  | nil =>
    rw [evalItems]
    exact .refl m
  | cons e rest =>
    rw [evalItems]
    exact (e.eval_extends scope m).trans (evalItems_extends scope rest _)

theorem evalMembers_extends (scope : Scope) (members : List (String × Expr)) (m : Memory) :
    m.Extends (evalMembers scope m members).1 := by
  match members with
  | [] =>
    rw [evalMembers]
    exact .refl m
  | (key, e) :: rest =>
    rw [evalMembers]
    exact (e.eval_extends scope m).trans (evalMembers_extends scope rest _)

end

/-- Bound variables hold what an environment says, and what is bare has no interfaces. -/
structure Scope.Agrees (scope : Scope) (m : Memory) (bound : String → Bool) (bare : Bool)
    (env : String → Content) : Prop where
  vars : ∀ name, bound name = true → Means m ((scope.vars.get? name).getD .null) (env name)
  bare : bare = true → scope.handed = .null ∧ scope.current = .null

section

variable {scope : Scope} {bound : String → Bool} {bare : Bool} {env : String → Content}

theorem Scope.Agrees.mono {m m' : Memory} (ext : m.Extends m') (agrees : scope.Agrees m bound bare env) :
    scope.Agrees m' bound bare env :=
  ⟨fun name member => (agrees.vars name member).mono ext, agrees.bare⟩

mutual

theorem Expr.eval_means (e : Expr) {m : Memory} (pure : e.isPure bound bare = true)
    (agrees : scope.Agrees m bound bare env) :
    Means (e.eval scope m).1 (e.eval scope m).2 (e.content env) := by
  cases e with
  | null =>
    rw [Expr.eval]
    exact .null
  | bool b =>
    rw [Expr.eval]
    exact .bool b
  | int n =>
    rw [Expr.eval]
    exact .int n
  | float x =>
    rw [Expr.eval]
    exact .float x
  | text s =>
    rw [Expr.eval]
    exact .text _ s
  | var name =>
    rw [Expr.eval]
    exact agrees.vars name pure
  | handed =>
    rw [Expr.eval, (agrees.bare pure).1]
    exact .null
  | current =>
    rw [Expr.eval, (agrees.bare pure).2]
    exact .null
  | list items =>
    rw [Expr.eval]
    exact .list _ ((evalItems_means items pure agrees).mono (.newList _ _))
  | object members =>
    rw [Expr.eval]
    exact .newObject _ (evalMembers_means members pure agrees).ofList

theorem evalItems_means (items : List Expr) {m : Memory} (pure : Expr.allPure bound bare items = true)
    (agrees : scope.Agrees m bound bare env) :
    MeanAll (evalItems scope m items).1 (evalItems scope m items).2 (Expr.contents env items) := by
  cases items with
  | nil =>
    rw [evalItems]
    exact .nil
  | cons e rest =>
    rw [Expr.allPure, Bool.and_eq_true] at pure
    rw [evalItems]
    exact .cons ((Expr.eval_means e pure.1 agrees).mono (evalItems_extends scope rest _))
      (evalItems_means rest pure.2 (agrees.mono (e.eval_extends scope m)))

theorem evalMembers_means (members : List (String × Expr)) {m : Memory}
    (pure : Expr.membersPure bound bare members = true) (agrees : scope.Agrees m bound bare env) :
    MeanEach (evalMembers scope m members).1 (evalMembers scope m members).2
      (Expr.memberContents env members) := by
  match members with
  | [] =>
    rw [evalMembers]
    exact .nil
  | (key, e) :: rest =>
    rw [Expr.membersPure, Bool.and_eq_true] at pure
    rw [evalMembers]
    exact .cons key ((Expr.eval_means e pure.1 agrees).mono (evalMembers_extends scope rest _))
      (evalMembers_means rest pure.2 (agrees.mono (e.eval_extends scope m)))

end

end

mutual

/-- Where nothing is handed over, and all variables are known, every expression has a content. -/
theorem Expr.isPure_all (e : Expr) : e.isPure (fun _ => true) true = true := by
  cases e with
  | list items => exact allPure_all items
  | object members => exact membersPure_all members
  | _ => rfl

theorem Expr.allPure_all (items : List Expr) : Expr.allPure (fun _ => true) true items = true := by
  cases items with
  | nil => rfl
  | cons e rest => rw [Expr.allPure, e.isPure_all, allPure_all rest, Bool.and_self]

theorem Expr.membersPure_all (members : List (String × Expr)) :
    Expr.membersPure (fun _ => true) true members = true := by
  match members with
  | [] => rfl
  | (key, e) :: rest => rw [Expr.membersPure, e.isPure_all, membersPure_all rest, Bool.and_self]

end

namespace World

variable {bound : List String} {env : String → Content}

theorem eval_extends (w : World) (site : Site) (e : Expr) :
    w.memory.Extends (w.eval site e).1.memory := e.eval_extends (w.scope site) w.memory

/-- Variables that have been written hold what an environment says. -/
def Agrees (w : World) (bound : List String) (env : String → Content) : Prop :=
  ∀ name ∈ bound, Means w.memory ((w.vars.get? name).getD .null) (env name)

theorem eval_means {w : World} (agrees : w.Agrees bound env) (site : Site) {e : Expr}
    (pure : e.isPure bound.contains false = true) :
    Means (w.eval site e).1.memory (w.eval site e).2 (e.content env) := by
  refine e.eval_means pure ⟨fun name member => agrees name ?_, Bool.noConfusion⟩
  exact List.contains_iff_mem.mp member

theorem store_memory (w : World) (into : Option String) (value : Value) :
    (w.store into value).memory = w.memory := by
  cases into <;> rfl

theorem store_vars (w : World) {into : Option String} (value : Value) {name : String}
    (other : into ≠ some name) : (w.store into value).vars.get? name = w.vars.get? name := by
  cases into with
  | none => rfl
  | some written =>
    refine (OrderedMap.get?_insert _ _ _ _).trans (if_neg fun same => other ?_)
    rw [same]

/-- Other variables hold what they held. -/
theorem Agrees.later {w w' : World} (agrees : w.Agrees bound env) (ext : w.memory.Extends w'.memory)
    (vars : ∀ name ∈ bound, w'.vars.get? name = w.vars.get? name) : w'.Agrees bound env := by
  intro name member
  rw [vars name member]
  exact (agrees name member).mono ext

theorem Agrees.store {w : World} (agrees : w.Agrees bound env) (into : Option String) {value : Value}
    {c : Content} (means : Means w.memory value c) :
    (w.store into value).Agrees (into.toList ++ bound) (Content.bind env into c) := by
  cases into with
  | none => exact agrees
  | some written =>
    intro name member
    rw [store_memory]
    by_cases same : written = name
    · subst same
      have here : ((w.store (some written) value).vars.get? written).getD .null = value := by
        rw [World.store, OrderedMap.get?_insert, if_pos rfl, Option.getD_some]
      rw [here, Content.bind, Function.update_self]
      exact means
    · rw [store_vars w value (mt Option.some.inj same), Content.bind,
        Function.update_of_ne (Ne.symm same)]
      refine agrees name ((List.mem_append.mp member).resolve_left fun here => same ?_)
      exact (List.mem_singleton.mp here).symm

/-- Actions that look at values change no object. -/
theorem actOnValues_extends (w : World) (site : Site) {a : ValueAction} (looks : a.looks = true) :
    w.memory.Extends (w.actOnValues site a).1.memory := by
  have twice (left right : Expr) :
      w.memory.Extends ((w.eval site left).1.eval site right).1.memory :=
    (w.eval_extends site left).trans (eval_extends _ site right)
  cases a with
  | assign e into | member e key into =>
    simp only [actOnValues, store_memory]
    exact w.eval_extends site e
  | nest e times inLists into =>
    simp only [actOnValues, store_memory]
    exact (w.eval_extends site e).trans (.wrap ..)
  | display e | kind e => exact w.eval_extends site e
  | equal left right | identical left right => exact twice left right
  | hasKey e | keys e =>
    simp only [actOnValues, onObject]
    split <;> exact w.eval_extends site e
  | compareObjects left right =>
    simp only [actOnValues, onObject]
    split
    · split <;> exact twice left right
    · exact twice left right
  | bump counter into =>
    simp only [actOnValues, store_memory]
    exact .refl _
  | note text => exact .refl _
  | insert | put | dropKey | setMember => cases looks

theorem actOnValues_vars (w : World) (site : Site) (a : ValueAction) {name : String}
    (other : a.into? ≠ some name) : (w.actOnValues site a).1.vars.get? name = w.vars.get? name := by
  cases a with
  | assign e into | member e key into | nest e times inLists into | bump counter into =>
    have written : into ≠ some name := other
    exact store_vars _ _ written
  | hasKey | keys | put | dropKey =>
    simp only [actOnValues, onObject]
    split <;> rfl
  | compareObjects =>
    simp only [actOnValues, onObject]
    split
    · split <;> rfl
    · rfl
  | _ => rfl

/-- Pure actions leave in variables what they come to. -/
theorem actOnValues_agrees {w : World} (agrees : w.Agrees bound env) (site : Site) {a : ValueAction}
    (pure : a.isPure bound = true) :
    (w.actOnValues site a).1.Agrees (a.into?.toList ++ bound) (a.content env) := by
  have ext := w.actOnValues_extends site (a.looks_of_pure pure)
  have evaluated (e : Expr) : (w.eval site e).1.Agrees bound env :=
    agrees.later (w.eval_extends site e) fun _ _ => rfl
  cases a with
  | assign e into => exact (evaluated e).store into (eval_means agrees site pure)
  | nest e times inLists into =>
    have wrapped := (eval_means agrees site pure).wrap inLists times
    refine Agrees.store (w := { (w.eval site e).1 with memory := _ }) ?_ into wrapped
    exact (evaluated e).later (.wrap ..) fun _ _ => rfl
  | member e key into =>
    exact (evaluated e).store into ((eval_means agrees site pure).member? key).getD
  | bump | insert | put | dropKey | setMember => cases pure
  | _ => exact agrees.later ext fun name _ => w.actOnValues_vars site _ (Option.some_ne_none name).symm

end World

end ModuleLoader
