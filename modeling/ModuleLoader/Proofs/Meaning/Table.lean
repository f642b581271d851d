import ModuleLoader.Proofs.Listed
import ModuleLoader.Proofs.Meaning.Body
import ModuleLoader.Proofs.Pruning

/-! What the modules of a table mean. Where dependencies do not lead back and bodies compute from what they
declare, the meaning of a module is a function of the meanings of its dependencies. -/
namespace ModuleLoader

open Relation (TransGen ReflTransGen)

namespace Draft

def body? : Draft → Option Script
  | .mk _ _ (.function body _) => some body
  | .mk _ _ (.value _) => none

/-- What a module holds, if its dependencies hold what `read` says. -/
def content (read : String → Option Content) : Draft → Option Content
  | .mk _ _ (.function body _) => Script.content read (fun _ => .null) body
  | .mk _ _ (.value e) => some (e.content fun _ => .null)

end Draft

namespace Setup

variable (setup : Setup)

/-- The body of the module that the table holds for a locator. -/
def body? (d : Locator) : Option Script := (setup.draft? d).bind Draft.body?

def Feeds (e d : Locator) : Prop := e ∈ setup.dependencies d

instance (e d : Locator) : Decidable (setup.Feeds e d) :=
  inferInstanceAs (Decidable (e ∈ setup.dependencies d))

/-- What a module stands on. -/
abbrev Below (d e : Locator) : Prop := TransGen setup.Feeds e d

/-- A module, and what it stands on. -/
abbrev UpTo (d e : Locator) : Prop := ReflTransGen setup.Feeds e d

/-- The meaning of a locator, once its dependencies have one: nothing without a module, and else what its
module holds if its dependencies hold what they mean. -/
def meaningFrom (d : Locator) (meaning : ∀ e, setup.Feeds e d → Option Content) : Option Content :=
  (setup.draft? d).bind (Draft.content fun id => (setup.resolver.resolve id (some d)).bind fun e =>
    if feeds : setup.Feeds e d then meaning e feeds else none)

/-- Modules are values, or functions of the dependencies that they declare. Variables are shared by all that
runs in a session, so a body writes none that belongs to another one that it can run in. -/
structure Functional : Prop extends Listed setup where
  pure : ∀ {d body}, setup.body? d = some body → Script.isPure [] body = true
  declared : ∀ {d body id e}, setup.body? d = some body → id ∈ Script.reads body →
    setup.resolver.resolve id (some d) = some e → setup.Feeds e d
  apart : ∀ {d e body inner}, TransGen setup.Feeds e d → setup.body? d = some body →
    setup.body? e = some inner → (Script.writes body).Disjoint (Script.writes inner)
  acyclic : ∀ d, ¬ TransGen setup.Feeds d d

variable {setup : Setup}

theorem file_of_draft {d : Locator} {draft : Draft} (here : setup.draft? d = some draft) :
    (⟨.ofLocator d, draft⟩ : PhysicalId × Draft) ∈ setup.files := by
  obtain ⟨⟨p, draft'⟩, found, rfl⟩ := Option.map_eq_some_iff.mp here
  have same : p = .ofLocator d := by simpa using List.find?_some found
  exact same ▸ List.mem_of_find?_eq_some found

theorem Functional.wf (functional : setup.Functional) : WellFounded setup.Feeds := by
  refine Loader.wellFounded_of_lists (setup.files.map fun file => ⟨file.1.text⟩) (fun {e d} feeds => ?_)
    functional.acyclic
  cases here : setup.draft? d with
  | none =>
    rw [dependencies, here] at feeds
    cases feeds
  | some draft => exact List.mem_map_of_mem (file_of_draft here)

/-- A finite table can be checked file by file: dependencies rank lower than what stands on them. -/
theorem Functional.of_files (listed : setup.Listed) (rank : Locator → Nat)
    (falls : ∀ file ∈ setup.files, ∀ e ∈ setup.dependencies ⟨file.1.text⟩, rank e < rank ⟨file.1.text⟩)
    (pure : ∀ file ∈ setup.files, ∀ body ∈ file.2.body?, Script.isPure [] body = true)
    (declared : ∀ file ∈ setup.files, ∀ body ∈ file.2.body?, ∀ id ∈ Script.reads body,
      ∀ e ∈ setup.resolver.resolve id (some ⟨file.1.text⟩), setup.Feeds e ⟨file.1.text⟩)
    (apart : ∀ file ∈ setup.files, ∀ body ∈ file.2.body?, ∀ other ∈ setup.files, ∀ inner ∈ other.2.body?,
      rank ⟨other.1.text⟩ < rank ⟨file.1.text⟩ → ∀ name ∈ Script.writes body, name ∉ Script.writes inner) :
    setup.Functional := by
  have file {d : Locator} {body : Script} (own : setup.body? d = some body) :
      ∃ draft, (⟨.ofLocator d, draft⟩ : PhysicalId × Draft) ∈ setup.files ∧ body ∈ draft.body? := by
    obtain ⟨draft, here, inside⟩ := Option.bind_eq_some_iff.mp own
    exact ⟨draft, file_of_draft here, inside⟩
  have lower {e d : Locator} (below : TransGen setup.Feeds e d) : rank e < rank d := by
    have one {e d : Locator} (feeds : setup.Feeds e d) : rank e < rank d := by
      cases here : setup.draft? d with
      | none =>
        rw [Feeds, dependencies, here] at feeds
        cases feeds
      | some draft => exact falls _ (file_of_draft here) e feeds
    induction below with
    | single feeds => exact one feeds
    | tail _ feeds ih => exact Nat.lt_trans ih (one feeds)
  refine ⟨listed, fun own => ?_, fun own read resolved => ?_, fun below own inside => ?_,
    fun d below => absurd (lower below) (Nat.lt_irrefl _)⟩
  · obtain ⟨draft, member, here⟩ := file own
    exact pure _ member _ here
  · obtain ⟨draft, member, here⟩ := file own
    exact declared _ member _ here _ read _ resolved
  · obtain ⟨draft, member, here⟩ := file own
    obtain ⟨draft', member', here'⟩ := file inside
    exact apart _ member _ here _ member' _ here' (lower below)

noncomputable def Functional.meaning (functional : setup.Functional) : Locator → Option Content :=
  functional.wf.fix setup.meaningFrom

end Setup

/-- A body depends on nothing but what it reads. -/
theorem Script.content_congr {read read' : String → Option Content} {body : Script}
    (same : ∀ id ∈ reads body, read id = read' id) (env : String → Content) :
    content read env body = content read' env body := by
  induction body generalizing env with
  | nil => rfl
  | cons action rest ih =>
    cases action with
    | get id into key =>
      rw [content, content, same id (List.mem_cons_self ..)]
      exact ih (fun id member => same id (List.mem_cons_of_mem _ member)) _
    | value a => exact ih same _
    | _ => rfl

namespace Setup.Functional

variable {setup : Setup} (functional : setup.Functional) {d : Locator}

/-- What a body of the table reads is what its dependencies mean. -/
theorem meaning_eq :
    functional.meaning d = (setup.draft? d).bind
      (Draft.content fun id => (setup.resolver.resolve id (some d)).bind functional.meaning) := by
  rw [meaning, functional.wf.fix_eq, meaningFrom]
  cases here : setup.draft? d with
  | none => rfl
  | some draft =>
    obtain ⟨_, _, ⟨body, source⟩ | e⟩ := draft
    · refine Script.content_congr (fun id read => ?_) _
      cases resolved : setup.resolver.resolve id (some d) with
      | none => rfl
      | some e =>
        have own : setup.body? d = some body := by rw [body?, here]; rfl
        rw [Option.bind_some, Option.bind_some, dif_pos (functional.declared own read resolved)]
    · rfl

end Setup.Functional

/-! Factories as they are read. -/

/-- A factory is what its file says, and a value holds what was written down. -/
def Draft.IsRead (m : Memory) : Draft → Factory → Prop
  | .mk _ _ (.function body source), f => f = .function body source
  | .mk _ _ (.value e), f => ∃ v, f = .value v ∧ Means m v (e.content fun _ => .null)

theorem Draft.IsRead.mono {m m' : Memory} (ext : m.Extends m') {draft : Draft} {f : Factory}
    (read : draft.IsRead m f) : draft.IsRead m' f := by
  obtain ⟨_, _, ⟨body, source⟩ | e⟩ := draft
  · exact read
  · obtain ⟨v, same, means⟩ := read
    exact ⟨v, same, means.mono ext⟩

namespace World

/-- Before anything has run, files are read where nothing is bound and nothing is handed over. -/
theorem evalDraft_read {w : World} (vars : w.vars = ∅) (draft : Draft) :
    w.memory.Extends (w.evalDraft .outer draft).1.memory ∧
      draft.IsRead (w.evalDraft .outer draft).1.memory (w.evalDraft .outer draft).2.factory := by
  obtain ⟨_, _, ⟨body, source⟩ | e⟩ := draft
  · exact ⟨.refl _, rfl⟩
  · refine ⟨e.eval_extends (w.scope .outer) w.memory, _, rfl, ?_⟩
    refine e.eval_means (e.isPure_all) ⟨fun name _ => ?_, fun _ => ⟨rfl, rfl⟩⟩
    rw [show (w.scope .outer).vars = ∅ from vars]
    exact .null

/-- Each file of the table is read. -/
theorem start_read (setup : Setup) :
    List.Forall₂ (fun file entry => entry.1 = file.1 ∧
      file.2.IsRead (World.start setup).memory entry.2.factory) setup.files
      (World.start setup).fetcher.files := by
  have read (files : List (PhysicalId × Draft)) (w : World) (vars : w.vars = ∅) :
      w.memory.Extends (files.foldl readFile w).memory ∧
        ∃ entries, (files.foldl readFile w).fetcher.files = w.fetcher.files ++ entries ∧
          List.Forall₂ (fun file entry => entry.1 = file.1 ∧
            file.2.IsRead (files.foldl readFile w).memory entry.2.factory) files entries := by
    induction files generalizing w with
    | nil => exact ⟨.refl _, [], (List.append_nil _).symm, .nil⟩
    | cons file files ih =>
      obtain ⟨first, isRead⟩ := evalDraft_read vars file.2
      obtain ⟨later, entries, same, all⟩ := ih (w.readFile file) vars
      refine ⟨first.trans later, (file.1, (w.evalDraft .outer file.2).2) :: entries, ?_,
        .cons ⟨rfl, isRead.mono later⟩ all⟩
      rw [List.foldl_cons, same, readFile, List.append_assoc]
      rfl
  let first : World :=
    { loader := .new setup.config setup.resolver setup.sink
      memory := .empty
      fetcher := { policy := setup.policy } }
  obtain ⟨-, entries, same, all⟩ := read setup.files first rfl
  rw [start_eq, same]
  exact all

end World

/-- The factory of a locator is what the table says. -/
theorem Setup.Listed.factory_read {setup : Setup} (listed : setup.Listed) {d : Locator} {draft : Draft}
    (here : setup.draft? d = some draft) :
    ∃ f, setup.factory? d = some f ∧ draft.IsRead (World.start setup).memory f := by
  obtain ⟨none, -⟩ | ⟨file, entry, found, ⟨-, isRead⟩, one⟩ :=
    Fetcher.registrations_read And.left (World.start_read setup) listed.single (.ofLocator d)
  · rw [Setup.draft?, none] at here
    cases here
  · rw [Setup.draft?, found] at here
    cases here
    refine ⟨entry.2.factory, ?_, isRead⟩
    have registrations : (World.start setup).fetcher.registrations (.ofLocator d) = [entry.2] := one
    rw [Setup.factory?, registrations]
    rfl

namespace Setup.Functional

variable {setup : Setup} (functional : setup.Functional) {d : Locator} {draft : Draft} {m : Memory}

/-- A module with a body means what its body comes to. -/
theorem meaning_body (here : setup.draft? d = some draft) {body : Script} {source : Option String}
    (isRead : draft.IsRead m (.function body source)) :
    setup.body? d = some body ∧ functional.meaning d = Script.content
      (fun id => (setup.resolver.resolve id (some d)).bind functional.meaning) (fun _ => .null) body := by
  rw [body?, functional.meaning_eq, here]
  obtain ⟨_, _, ⟨body', source'⟩ | e⟩ := draft
  · cases isRead
    exact ⟨rfl, rfl⟩
  · obtain ⟨v, same, -⟩ := isRead
    cases same

/-- A module with a value means what was written down. -/
theorem meaning_value (here : setup.draft? d = some draft) {v : Value}
    (isRead : draft.IsRead m (.value v)) :
    ∃ c, functional.meaning d = some c ∧ Means m v c := by
  rw [functional.meaning_eq, here]
  obtain ⟨_, _, ⟨body', source'⟩ | e⟩ := draft
  · cases isRead
  · obtain ⟨v', same, means⟩ := isRead
    cases same
    exact ⟨_, rfl, means⟩

end Setup.Functional

end ModuleLoader
