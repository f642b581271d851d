import ModuleLoader.Binary64
import ModuleLoader.Diagnostic
import ModuleLoader.Locator
import ModuleLoader.Selector

/-! What host code does, as data: the bodies of factories and patches, callbacks, and the steps of a
session are lists of actions. -/
namespace ModuleLoader

/-- A value as it is written down. Every evaluation of a text, list or object makes a new one. -/
inductive Expr where
  | null
  | bool (b : Bool)
  | int (n : Int)
  | float (x : Binary64)
  | text (s : String)
  | list (items : List Expr)
  | object (members : List (String × Expr))
  /-- A session variable; null when it was never set. -/
  | var (name : String)
  /-- The interface handed to the running body; null outside of one. -/
  | handed
  /-- What the running body's module exports now; null outside of one. -/
  | current
deriving Inhabited

/-- How an action names a module record. -/
inductive RecordRef where
  /-- A record kept earlier under a name. -/
  | kept (name : String)
  /-- The record registered under a locator. -/
  | registered (key : String)
  /-- The module of the running body. -/
  | own
deriving DecidableEq

/-- Actions that look at values and change members, variables and counters, and nothing else. -/
inductive ValueAction where
  | assign (value : Expr) (into : Option String)
  /-- Wraps a value several times, in lists or in objects with the one member `k`. -/
  | nest (value : Expr) (times : Nat) (inLists : Bool) (into : Option String)
  | display (value : Expr)
  | equal (left right : Expr)
  | identical (left right : Expr)
  | insert (target : Expr) (key : String) (value : Expr)
  | member (target : Expr) (key : String) (into : Option String)
  | kind (target : Expr)
  | put (target : Expr) (key : String) (value : Expr)
  | dropKey (target : Expr) (key : String)
  | hasKey (target : Expr) (key : String)
  | keys (target : Expr)
  | compareObjects (left right : Expr)
  /-- Sets a member of the interface handed to the running body. -/
  | setMember (key : String) (value : Expr)
  | bump (counter : String) (into : Option String)
  | note (text : String)

/-- What an inspection shows. -/
inductive Inspection where
  | loader
  | registry
  | record (ref : RecordRef)
  | factory (ref : RecordRef)
  | requests
  | tokens
  | nothing

/-- Questions to the loader that change nothing. -/
inductive Query where
  | resolve (id : String) (referrer : Option String)
  | self
  | find (selector : SelectorText)
  | compiling
  | root
  | has (key : String)
  | registry
  | info (ref : RecordRef)
  | sameRecord (ref : RecordRef) (other : String)
  /-- The dependencies that may be waited for, and what would be reported about the others. -/
  | prune (ref : RecordRef)
  | requestCount (id : String)
  | inspect (what : Inspection)

mutual

/-- A factory as it is written down. -/
inductive FactoryDraft where
  | function (body : List Action) (source : Option String)
  | value (expr : Expr)

/-- A registration as it is written down. -/
inductive Draft where
  | mk (id : Option String) (dependencies : Option (List String)) (factory : FactoryDraft)

/-- What is done with a retrieval that the host has kept. -/
inductive TokenAction where
  | look
  | define (draft : Draft)
  /-- Registers under the locator that the retrieval was started for. -/
  | defineDerived (draft : Draft)
  | complete
  | abandon

inductive Action where
  | value (action : ValueAction)
  | query (query : Query)
  /-- The interface of a dependency, put into the interface handed to the body if a key is given. -/
  | get (id : String) (into : Option String) (key : Option String)
  | loadAsync (ids : List String) (tag : String) (body : List Action)
  /-- Ends the body with a value that replaces the interface. -/
  | giveBack (value : Expr)
  /-- Ends the body with the interface of a dependency. -/
  | giveBackDependency (id : String)
  | useModules (ids : List String) (tag : String) (body : List Action)
  | load (locators : List Locator) (tag : String) (body : List Action)
  | compile (ref : RecordRef) (into : Option String)
  | define (draft : Draft)
  | defineDerived (draft : Draft) (derived : Option Locator)
  | describe (draft : Draft)
  | modify (id : String) (body : List Action)
  | preload (id : String)
  | remove (key : String)
  | keep (ref : RecordRef) (into : String)
  | setExports (ref : RecordRef) (value : Expr)
  | addFile (resource : PhysicalId) (draft : Draft)
  | complete (resource : PhysicalId)
  | completeNext
  | completeAll
  | token (index : Nat) (action : TokenAction)
  | report (severity : Severity) (message : String) (detail : Option String)
  | clearDiagnostics
  | unknown (name : String)

end

instance : Inhabited Action := ⟨.unknown ""⟩

instance : Inhabited Draft := ⟨.mk none none (.value .null)⟩

abbrev Script := List Action

end ModuleLoader
