import ModuleLoader.Proofs.Listed.Quiet
import ModuleLoader.Proofs.Meaning.Table

/-! Compiling comes to the meaning. A module all of whose dependencies have been waited for is compiled in one
go, and what it exports holds what it means; modules that are compiled already are not compiled again. -/
namespace ModuleLoader

open Relation (TransGen ReflTransGen)
open Loader (Kept Raised Tabular)

/-! One moment leads to another. -/

/-- Does a frame neither begin a compilation nor hand over what was asked for? -/
def Frame.isInner : Frame → Bool
  | .compile _ | .deliver .. => false
  | _ => true

namespace Machine

/-- The machine comes from one moment to another. Modules that are compiled on the way have waited for their
dependencies, and nothing is handed over. -/
inductive Leads : Machine → Machine → Prop where
  | here (m : Machine) : Leads m m
  | frame {w : World} {frame : Frame} {rest : List Frame} {last : Machine} (inner : frame.isInner = true)
      (later : Leads ⟨(frame.exec w).1, (frame.exec w).2 ++ rest⟩ last) : Leads ⟨w, frame :: rest⟩ last
  | compile {w : World} {r : RecordId} {rest : List Frame} {last : Machine}
      (waited : w.loader.status r ≠ .saved) (later : Leads ⟨(w.compile r).1, (w.compile r).2 ++ rest⟩ last) :
      Leads ⟨w, .compile r :: rest⟩ last

theorem Leads.trans {a b c : Machine} (ab : Leads a b) (bc : Leads b c) : Leads a c := by
  induction ab with
  | here => exact bc
  | frame inner later ih => exact .frame inner (ih bc)
  | compile waited later ih => exact .compile waited (ih bc)

end Machine

open Machine (Leads)

/-- All that is done with a locator stays done while records move on. -/
theorem Setup.Done.raised {setup : Setup} {l l' : Loader} {d : Locator} (raised : Raised l l')
    (done : setup.Done l d) : setup.Done l' d := by
  obtain ⟨r, held, state⟩ := done
  refine ⟨r, (raised.entry d).trans held, ?_⟩
  obtain ready | ⟨fetched, bare⟩ := state
  · exact .inl (Status.le_trans ready (raised.rises r))
  · refine .inr ⟨?_, bare⟩
    obtain same | ⟨saved, -⟩ := raised.status r
    · exact same.trans fetched
    · rw [fetched] at saved
      exact absurd saved (by decide)

section

variable {setup : Setup} (functional : setup.Functional)

/-- Compiled modules export what they mean. -/
structure World.Sane (w : World) : Prop where
  tabular : Tabular setup w.loader
  memory : (World.start setup).memory.Extends w.memory
  compiled : ∀ r, w.loader.status r = .compiled → Holds w.memory (w.loader.record r).exports
    (functional.meaning (w.loader.record r).locator)

/-- Modules have been compiled among some, and bodies have run among those of others. -/
structure World.Compiles (setup : Setup) (P Q : Locator → Prop) (w w' : World) : Prop where
  raised : Raised w.loader w'.loader
  barriers : w'.loader.barriers = w.loader.barriers
  fetcher : w'.fetcher = w.fetcher
  memory : w.memory.Extends w'.memory
  only : ∀ r, w'.loader.status r = w.loader.status r ∨
    w'.loader.status r = .compiled ∧ P (w.loader.record r).locator
  vars : ∀ name, (∀ d body, Q d → setup.body? d = some body → name ∉ Script.writes body) →
    w'.vars.get? name = w.vars.get? name

/-- All that a locator stands on is done, and is not in the middle of being compiled. -/
def World.Clear (setup : Setup) (w : World) (e : Locator) : Prop :=
  setup.Done w.loader e ∧ ∀ r, w.loader.entry? e = some r → w.loader.status r ≠ .compiling

/-- Modules have been compiled, and the answer holds a given content. -/
structure World.Answers (P Q : Locator → Prop) (w : World) (c : Option Content) (w' : World) : Prop extends
    Compiles setup P Q w w' where
  sane : w'.Sane functional
  answer : Holds w'.memory w'.answer c

end

namespace World

variable {setup : Setup} {functional : setup.Functional} {P P' Q Q' : Locator → Prop}
  {w w' a b c : World}

namespace Compiles

theorem trans (ab : Compiles setup P Q a b) (bc : Compiles setup P Q b c) : Compiles setup P Q a c := by
  refine ⟨ab.raised.trans bc.raised, bc.barriers.trans ab.barriers, bc.fetcher.trans ab.fetcher,
    ab.memory.trans bc.memory, fun r => ?_, fun name other => (bc.vars name other).trans (ab.vars name other)⟩
  obtain same | ⟨compiled, own⟩ := bc.only r
  · rw [same]
    exact ab.only r
  · exact .inr ⟨compiled, ab.raised.locator r ▸ own⟩

theorem mono (wide : ∀ d, P d → P' d) (wider : ∀ d, Q d → Q' d) (ab : Compiles setup P Q a b) :
    Compiles setup P' Q' a b :=
  ⟨ab.raised, ab.barriers, ab.fetcher, ab.memory,
    fun r => (ab.only r).imp_right fun here => ⟨here.1, wide _ here.2⟩,
    fun name other => ab.vars name fun d body own => other d body (wider d own)⟩

/-- What compiling does not depend on may change. -/
theorem of_kept (kept : Kept w.loader w'.loader) (barriers : w'.loader.barriers = w.loader.barriers)
    (fetcher : w'.fetcher = w.fetcher) (memory : w.memory.Extends w'.memory)
    (vars : ∀ name, (∀ d body, Q d → setup.body? d = some body → name ∉ Script.writes body) →
      w'.vars.get? name = w.vars.get? name) : Compiles setup P Q w w' :=
  ⟨kept.raised, barriers, fetcher, memory, fun r => .inl (kept.status r), vars⟩

/-- Nothing but what has been compiled since is left in the middle. -/
theorem clear (compiles : Compiles setup P Q w w') {e : Locator} (clear : w.Clear setup e) :
    w'.Clear setup e := by
  refine ⟨clear.1.raised compiles.raised, fun r held compiling => ?_⟩
  have before := clear.2 r ((compiles.raised.entry e).symm.trans held)
  obtain same | ⟨compiled, -⟩ := compiles.only r
  · exact before (same.symm.trans compiling)
  · cases compiled.symm.trans compiling

end Compiles

/-- What compiled modules export stays. -/
theorem Sane.later (sane : w.Sane functional) (raised : Raised w.loader w'.loader)
    (memory : w.memory.Extends w'.memory)
    (exports : ∀ r, w'.loader.status r = .compiled → w.loader.status r = .compiled ∧
      (w'.loader.record r).exports = (w.loader.record r).exports) : w'.Sane functional := by
  refine ⟨sane.tabular.raised raised, sane.memory.trans memory, fun r compiled => ?_⟩
  obtain ⟨before, same⟩ := exports r compiled
  rw [same, raised.locator]
  exact (sane.compiled r before).mono memory

theorem Sane.of_loader (sane : w.Sane functional) (loader : w'.loader = w.loader)
    (memory : w.memory.Extends w'.memory) : w'.Sane functional := by
  refine sane.later (Kept.of_eq loader).raised memory fun r compiled => ?_
  rw [loader] at compiled ⊢
  exact ⟨compiled, rfl⟩

/-- A module has the factory that its table says. -/
theorem Sane.factory (sane : w.Sane functional) {r : RecordId} (saved : .saved ≤ w.loader.status r) :
    ∃ draft f, setup.draft? (w.loader.record r).locator = some draft ∧
      (w.loader.record r).factory = some f ∧ draft.IsRead w.memory f := by
  obtain ⟨draft, here⟩ := Option.ne_none_iff_exists'.mp (sane.tabular.full saved).1
  obtain ⟨f, made, isRead⟩ := functional.factory_read here
  exact ⟨draft, f, here, (sane.tabular.defined saved).trans made, isRead.mono sane.memory⟩

namespace Answers

variable {content : Option Content}

theorem mono (wide : ∀ d, P d → P' d) (wider : ∀ d, Q d → Q' d)
    (answers : Answers functional P Q a content b) : Answers functional P' Q' a content b :=
  { answers with toCompiles := answers.toCompiles.mono wide wider }

theorem after (ab : Compiles setup P Q a b) (answers : Answers functional P Q b content c) :
    Answers functional P Q a content c :=
  { answers with toCompiles := ab.trans answers.toCompiles }

end Answers

end World

section

variable {setup : Setup} {functional : setup.Functional}

/-- Compiling the module of a locator comes to what the locator means, once all that it stands on is done. -/
def Setup.Functional.Compilable (functional : setup.Functional) (e : Locator) : Prop :=
  ∀ (w : World) (r : RecordId) (rest : List Frame), w.Sane functional →
    (∀ x, setup.UpTo e x → w.Clear setup x) → w.loader.entry? e = some r →
    ∃ w', Leads ⟨w, .compile r :: rest⟩ ⟨w', rest⟩ ∧
      World.Answers functional (setup.UpTo e) (setup.UpTo e) w (functional.meaning e) w'

namespace World

variable {d : Locator} {w : World} {c : Context}

/-- A dependency that is asked for answers with what it means. -/
theorem getDependency_answers (below : ∀ e, setup.Feeds e d → functional.Compilable e) {id : String}
    (sane : w.Sane functional) (clear : ∀ e, setup.Below d e → w.Clear setup e)
    (own : (w.loader.record c.record).locator = d)
    (declared : ∀ e, setup.resolver.resolve id (some d) = some e → setup.Feeds e d) (rest : List Frame) :
    ∃ w', Leads ⟨(w.getDependency c id).1, (w.getDependency c id).2 ++ rest⟩ ⟨w', rest⟩ ∧
      Answers functional (setup.Below d) (setup.Below d) w
        ((setup.resolver.resolve id (some d)).bind functional.meaning) w' := by
  have meant : w.loader.resolve id (some (w.loader.record c.record).locator) =
      setup.resolver.resolve id (some d) := by
    rw [own, Loader.resolve, sane.tabular.resolver, Option.getD_some]
  have answered (answer : Option Value) :
      Compiles setup (setup.Below d) (setup.Below d) w { w with answer } :=
    .of_kept (.refl _) rfl rfl (.refl _) fun _ _ => rfl
  cases resolved : setup.resolver.resolve id (some d) with
  | none =>
    have step : w.getDependency c id = ({ w with answer := none }, []) := by
      simp only [getDependency, meant, resolved]
    rw [step]
    exact ⟨_, .here _, answered none, sane.of_loader rfl (.refl _), .none⟩
  | some e =>
    have feeds := declared e resolved
    obtain ⟨⟨child, held, state⟩, uncompiling⟩ := clear e (.single feeds)
    by_cases compiled : w.loader.status child = .compiled
    · have step : w.getDependency c id = ({ w with answer := (w.loader.record child).exports }, []) := by
        simp only [getDependency, meant, resolved, held, compiled]
      rw [step]
      refine ⟨_, .here _, answered _, sane.of_loader rfl (.refl _), ?_⟩
      have holds := sane.compiled child compiled
      rw [sane.tabular.own held] at holds
      exact holds
    · have step : w.getDependency c id =
          ({ w with loader := w.loader.setInitiator child c.record }, [.compile child]) := by
        have other := uncompiling child held
        simp only [getDependency, meant, resolved, held]
      have kept : Kept w.loader (w.loader.setInitiator child c.record) :=
        .of_update (f := fun record => { record with initiator := some c.record }) (fun _ => rfl)
          (fun _ => rfl) _ _
      have asked : Compiles setup (setup.Below d) (setup.Below d) w
          { w with loader := w.loader.setInitiator child c.record } :=
        .of_kept kept rfl rfl (.refl _) fun _ _ => rfl
      have further : Sane functional { w with loader := w.loader.setInitiator child c.record } := by
        refine sane.later kept.raised (.refl _) fun r compiled => ⟨(kept.status r).symm.trans compiled, ?_⟩
        have record := w.loader.record_updateRecord child r fun record =>
          { record with initiator := some c.record }
        refine (congrArg Record.exports record).trans ?_
        split <;> rfl
      rw [step]
      obtain ⟨w', leads, answers⟩ := below e feeds _ child rest further
        (fun x under => asked.clear (clear x (.tail' under feeds))) held
      have lower (x : Locator) (under : setup.UpTo e x) : setup.Below d x := .tail' under feeds
      exact ⟨w', leads, (answers.mono lower lower).after asked⟩

/-- Taking down an interface stores it, and does nothing else with values. -/
theorem conclude_got (w : World) (site : Site) (into : Option String) :
    (w.conclude site (.got into none)).memory = w.memory ∧
      (w.conclude site (.got into none)).vars = (w.store into (w.answer.getD .null)).vars :=
  ⟨w.store_memory into _, rfl⟩

theorem act_value (w : World) (site : Site) (a : ValueAction) :
    (w.act site (.value a)).2 = [] ∧ (w.act site (.value a)).1.loader = w.loader ∧
      (w.act site (.value a)).1.fetcher = w.fetcher ∧
      (w.act site (.value a)).1.memory = (w.actOnValues site a).1.memory ∧
      (w.act site (.value a)).1.vars = (w.actOnValues site a).1.vars := by
  obtain ⟨loader, fetcher, -⟩ := w.actOnValues_same site a
  simp only [act]
  generalize w.actOnValues site a = made at *
  obtain ⟨w', reply⟩ := made
  cases reply <;> exact ⟨rfl, loader, fetcher, rfl, rfl⟩

/-- A body is being run. The variables that it has written hold what they are to hold, and all that its
module stands on is done. -/
structure Midway (functional : setup.Functional) (d : Locator) (body : Script) (record : RecordId)
    (bound : List String) (env : String → Content) (w : World) : Prop where
  whole : setup.body? d = some body
  sane : w.Sane functional
  clear : ∀ e, setup.Below d e → w.Clear setup e
  own : (w.loader.record record).locator = d
  bounds : bound ⊆ Script.writes body
  agrees : w.Agrees bound env

namespace Midway

variable {body : Script} {record : RecordId} {bound : List String} {env : String → Content}

/-- A step of a body is on the way to the next one if its variables are right. -/
theorem later (midway : Midway functional d body record bound env w) {w' : World} {bound' : List String}
    {env' : String → Content} (compiles : Compiles setup (setup.Below d) (setup.UpTo d) w w')
    (sane : w'.Sane functional) (bounds : bound' ⊆ Script.writes body) (agrees : w'.Agrees bound' env') :
    Midway functional d body record bound' env' w' :=
  ⟨midway.whole, sane, fun e under => compiles.clear (midway.clear e under),
    (compiles.raised.locator _).trans midway.own, bounds, agrees⟩

/-- Dependencies that are compiled meanwhile leave the variables of a body alone. -/
theorem compiled (midway : Midway functional d body record bound env w) {w' : World}
    (compiles : Compiles setup (setup.Below d) (setup.Below d) w w') (sane : w'.Sane functional) :
    Midway functional d body record bound env w' := by
  have ran := compiles.mono (fun _ below => below) fun e under => under.to_reflTransGen
  refine midway.later ran sane midway.bounds (midway.agrees.later compiles.memory fun name member => ?_)
  exact compiles.vars name fun e inner under own =>
    functional.apart under midway.whole own (midway.bounds member)

theorem written (midway : Midway functional d body record bound env w) {into : Option String}
    (writes : ∀ name, into = some name → name ∈ Script.writes body) :
    into.toList ++ bound ⊆ Script.writes body :=
  List.append_subset.mpr ⟨fun name member => writes name (Option.mem_toList.mp member), midway.bounds⟩

/-- The answer of a dependency is taken down. -/
theorem got (midway : Midway functional d body record bound env w) (site : Site) {into : Option String}
    (writes : ∀ name, into = some name → name ∈ Script.writes body) {content : Option Content}
    (answer : Holds w.memory w.answer content) :
    Compiles setup (setup.Below d) (setup.UpTo d) w (w.conclude site (.got into none)) ∧
      Midway functional d body record (into.toList ++ bound)
        (Content.bind env into (content.getD .null)) (w.conclude site (.got into none)) := by
  obtain ⟨loader, fetcher, -⟩ := w.conclude_same site (.got into none)
  obtain ⟨memory, vars⟩ := w.conclude_got site into
  have same : w.memory.Extends (w.conclude site (.got into none)).memory := memory ▸ .refl _
  have compiles : Compiles setup (setup.Below d) (setup.UpTo d) w (w.conclude site (.got into none)) := by
    refine .of_kept (.of_eq loader) (by rw [loader]) fetcher same fun name other => ?_
    rw [vars]
    exact w.store_vars _ fun named => other d body .refl midway.whole (writes name named)
  have stored := (midway.agrees.store into answer.getD).later
    ((w.store_memory into _).symm ▸ same) fun name _ => by rw [vars]
  exact ⟨compiles, midway.later compiles (midway.sane.of_loader loader same) (midway.written writes) stored⟩

/-- A pure action computes what it comes to. -/
theorem value (midway : Midway functional d body record bound env w) (site : Site) {a : ValueAction}
    (pure : a.isPure bound = true) (writes : ∀ name, a.into? = some name → name ∈ Script.writes body) :
    Compiles setup (setup.Below d) (setup.UpTo d) w (w.act site (.value a)).1 ∧
      Midway functional d body record (a.into?.toList ++ bound) (a.content env)
        (w.act site (.value a)).1 := by
  obtain ⟨-, loader, fetcher, memory, vars⟩ := w.act_value site a
  have ext : w.memory.Extends (w.act site (.value a)).1.memory :=
    memory ▸ w.actOnValues_extends site (a.looks_of_pure pure)
  have compiles : Compiles setup (setup.Below d) (setup.UpTo d) w (w.act site (.value a)).1 := by
    refine .of_kept (.of_eq loader) (by rw [loader]) fetcher ext fun name other => ?_
    rw [vars]
    exact w.actOnValues_vars site a fun named => other d body .refl midway.whole (writes name named)
  have agrees : (w.act site (.value a)).1.Agrees (a.into?.toList ++ bound) (a.content env) :=
    (actOnValues_agrees midway.agrees site pure).later (memory ▸ .refl _) fun name _ => by rw [vars]
  exact ⟨compiles, midway.later compiles (midway.sane.of_loader loader ext) (midway.written writes) agrees⟩

end Midway

/-- What is left of a body gives back what it comes to. -/
theorem script_answers (below : ∀ e, setup.Feeds e d → functional.Compilable e) {body : Script} {site : Site}
    (here : site.context = some c) (rest : List Frame) {actions : Script} {bound : List String}
    {env : String → Content} (pure : Script.isPure bound actions = true)
    (reads : Script.reads actions ⊆ Script.reads body) (writes : Script.writes actions ⊆ Script.writes body)
    (midway : Midway functional d body c.record bound env w) :
    ∃ w', Leads ⟨w, .script site actions :: rest⟩ ⟨w', rest⟩ ∧
      Answers functional (setup.Below d) (setup.UpTo d) w (Script.content
        (fun id => (setup.resolver.resolve id (some d)).bind functional.meaning) env actions) w' := by
  induction actions generalizing bound env w with
  | nil => cases pure
  | cons action later ih =>
    have fewer : Script.reads later ⊆ Script.reads body :=
      fun id member => reads (((List.sublist_cons_self ..).filterMap _).subset member)
    have less : Script.writes later ⊆ Script.writes body :=
      fun name member => writes (((List.sublist_cons_self ..).filterMap _).subset member)
    cases action with
    | get id into key =>
      cases key with
      | some key => cases pure
      | none =>
        have written (name : String) (named : into = some name) : name ∈ Script.writes body :=
          writes (List.mem_filterMap.mpr ⟨_, List.mem_cons_self .., named⟩)
        have step : Frame.exec w (.script site (.get id into none :: later)) =
            ((w.getDependency c id).1, (w.getDependency c id).2 ++
              [.conclude site (.got into none), .script site later]) := by
          simp [Frame.exec, runScript, act, here, endsScript]
        obtain ⟨w₁, leads, answers⟩ := getDependency_answers below midway.sane midway.clear midway.own
          (fun e resolved => functional.declared midway.whole (reads (List.mem_cons_self ..)) resolved)
          (.conclude site (.got into none) :: .script site later :: rest)
        obtain ⟨concluded, next⟩ := (midway.compiled answers.toCompiles answers.sane).got site written
          answers.answer
        obtain ⟨w', further, last⟩ := ih pure fewer less next
        have ran := answers.toCompiles.mono (fun _ below => below) fun e under => under.to_reflTransGen
        refine ⟨w', .frame rfl ?_, last.after (ran.trans concluded)⟩
        rw [step, List.append_assoc]
        exact leads.trans (.frame rfl further)
    | value a =>
      rw [Script.isPure, Bool.and_eq_true] at pure
      have written (name : String) (named : a.into? = some name) : name ∈ Script.writes body :=
        writes (List.mem_filterMap.mpr ⟨_, List.mem_cons_self .., named⟩)
      have step : Frame.exec w (.script site (.value a :: later)) =
          ((w.act site (.value a)).1, [.script site later]) := by
        simp [Frame.exec, runScript, endsScript, (w.act_value site a).1]
      obtain ⟨compiles, next⟩ := midway.value site pure.1 written
      obtain ⟨w', further, last⟩ := ih pure.2 fewer less next
      refine ⟨w', .frame rfl ?_, last.after compiles⟩
      rw [step]
      exact further
    | giveBack e =>
      have ext := w.eval_extends site e
      have step : Frame.exec w (.script site (.giveBack e :: later)) =
          ({ (w.eval site e).1 with answer := some (w.eval site e).2 }, []) := by
        simp [Frame.exec, runScript, act, endsScript]
      refine ⟨{ (w.eval site e).1 with answer := some (w.eval site e).2 },
        .frame rfl ?_, ?_, ?_, ?_⟩
      · rw [step]
        exact .here _
      · exact .of_kept (.refl _) rfl rfl ext fun _ _ => rfl
      · exact midway.sane.of_loader rfl ext
      · exact .some (eval_means midway.agrees site pure)
    | _ => cases pure

/-- Where there are no patches, a module is compiled when its factory is done with. -/
theorem finishCompile_leads (tabular : Tabular setup w.loader) (r : RecordId) (rest : List Frame) :
    Leads ⟨w, .finishCompile r :: rest⟩ ⟨{ w with
      loader := w.loader.setStatus r .compiled
      answer := ((w.loader.setStatus r .compiled).record r).exports }, rest⟩ := by
  have keys : (w.loader.record r).patchKeys = [(w.loader.record r).locator] := by
    rw [Record.patchKeys, tabular.alone]
    rfl
  have finished : w.finishCompile r = ({ w with loader := w.loader.setStatus r .compiled },
      [.applyPatches (w.loader.record r).locator r, .answerExports r]) := by
    rw [finishCompile, keys]
    rfl
  have none : (w.loader.setStatus r .compiled).patches = ∅ := tabular.patches
  have applied : World.applyPatches { w with loader := w.loader.setStatus r .compiled }
      (w.loader.record r).locator r = ({ w with loader := w.loader.setStatus r .compiled }, []) := by
    have gone : (w.loader.setStatus r .compiled).patches.get? (w.loader.record r).locator = Option.none := by
      rw [none]
      rfl
    have still : (w.loader.setStatus r .compiled).patches.erase (w.loader.record r).locator =
        (w.loader.setStatus r .compiled).patches := by
      rw [none]
      rfl
    simp only [applyPatches, Loader.takePatches, gone, still, Option.getD_none, List.flatMap_nil]
  refine .frame rfl ?_
  rw [Frame.exec, finished]
  refine .frame rfl ?_
  rw [Frame.exec, applied]
  exact .frame rfl (.here _)

/-- A module has begun to be compiled, and nothing else has changed but what bodies do not depend on. -/
structure Starts (w : World) (r : RecordId) (w' : World) : Prop where
  raised : Raised w.loader w'.loader
  own : w'.loader.status r = .compiling
  others : ∀ x, x ≠ r → w'.loader.record x = w.loader.record x
  barriers : w'.loader.barriers = w.loader.barriers
  fetcher : w'.fetcher = w.fetcher
  memory : w.memory.Extends w'.memory
  vars : w'.vars = w.vars

namespace Starts

variable {w' w'' : World} {r : RecordId} {P Q : Locator → Prop} {content : Option Content}

theorem sane (starts : Starts w r w') (sane : w.Sane functional) : w'.Sane functional := by
  refine sane.later starts.raised starts.memory fun x compiled => ?_
  have other : x ≠ r := by
    rintro rfl
    cases starts.own.symm.trans compiled
  have same := starts.others x other
  exact ⟨(congrArg Record.status same).symm.trans compiled, congrArg Record.exports same⟩

/-- What another module stands on is not touched. -/
theorem clear (starts : Starts w r w') {e : Locator} (clear : w.Clear setup e)
    (other : w.loader.entry? e ≠ some r) : w'.Clear setup e := by
  refine ⟨clear.1.raised starts.raised, fun x held compiling => ?_⟩
  have before := (starts.raised.entry e).symm.trans held
  have apart : x ≠ r := by
    rintro rfl
    exact other before
  exact clear.2 x before ((congrArg Record.status (starts.others x apart)).symm.trans compiling)

/-- When the module is compiled, nothing but compiled modules is new. -/
theorem answers (starts : Starts w r w') (own : P (w.loader.record r).locator)
    (answers : Answers functional P Q w' content w'') (compiled : w''.loader.status r = .compiled) :
    Answers functional P Q w content w'' := by
  refine ⟨⟨starts.raised.trans answers.raised, answers.barriers.trans starts.barriers,
    answers.fetcher.trans starts.fetcher, starts.memory.trans answers.memory, fun x => ?_,
    fun name other => ?_⟩, answers.sane, answers.answer⟩
  · by_cases here : x = r
    · subst here
      exact .inr ⟨compiled, own⟩
    · have same := starts.others x here
      obtain still | ⟨done, inside⟩ := answers.only x
      · exact .inl (still.trans (congrArg Record.status same))
      · exact .inr ⟨done, same ▸ inside⟩
  · rw [answers.vars name other, starts.vars]

end Starts

/-- A module whose interface is there is finished, and answers with it. -/
theorem finishCompile_answers {P Q : Locator → Prop} {content : Option Content} (sane : w.Sane functional)
    {r : RecordId} (compiling : w.loader.status r = .compiling) (own : P (w.loader.record r).locator)
    (meant : functional.meaning (w.loader.record r).locator = content)
    (holds : Holds w.memory (w.loader.record r).exports content) (rest : List Frame) :
    ∃ w', Leads ⟨w, .finishCompile r :: rest⟩ ⟨w', rest⟩ ∧ Answers functional P Q w content w' ∧
      w'.loader.status r = .compiled := by
  have saved : .saved ≤ w.loader.status r := by
    rw [compiling]
    decide
  obtain ⟨raised, only⟩ := Loader.Raised.of_update (l := w.loader) (r := r) (s := .compiled)
    (f := fun record => { record with status := .compiled }) (fun _ => rfl) (fun _ => rfl) saved
    (Status.le_compiled _)
  have finished : Raised w.loader (w.loader.setStatus r .compiled) :=
    ⟨raised.base, raised.fixed, raised.status⟩
  have exports (x : RecordId) :
      ((w.loader.setStatus r .compiled).record x).exports = (w.loader.record x).exports := by
    refine (congrArg Record.exports (w.loader.record_updateRecord r x _)).trans ?_
    split <;> rfl
  refine ⟨_, finishCompile_leads sane.tabular r rest, ⟨⟨finished, rfl, rfl, .refl _, fun x => ?_,
    fun _ _ => rfl⟩, ⟨sane.tabular.raised finished, sane.memory, fun x compiled => ?_⟩, ?_⟩, ?_⟩
  · have status := only x
    split at status
    · rename_i here
      exact .inr ⟨status, here ▸ own⟩
    · exact .inl status
  · dsimp only
    rw [exports, finished.locator]
    by_cases here : x = r
    · rw [here, meant]
      exact holds
    · exact sane.compiled x ((if_neg here).symm.trans ((only x).symm.trans compiled))
  · dsimp only
    rw [exports]
    exact holds
  · exact (only r).trans (if_pos rfl)

/-- Interfaces are replaced while modules are compiling. -/
theorem setExports_compiles {P Q : Locator → Prop} (sane : w.Sane functional) {r : RecordId}
    (compiling : w.loader.status r = .compiling) (value : Value) :
    Compiles setup P Q w { w with loader := w.loader.setExports r value } ∧
      Sane functional { w with loader := w.loader.setExports r value } ∧
      (∀ x, (w.loader.setExports r value).record x =
        if x = r then { w.loader.record x with exports := some value } else w.loader.record x) := by
  have inside := Loader.index_lt_of_known (l := w.loader) (r := r) (by rw [compiling]; decide)
  have kept : Kept w.loader (w.loader.setExports r value) :=
    .of_update (f := fun record => { record with exports := some value }) (fun _ => rfl) (fun _ => rfl) _ _
  have records := Loader.record_updateRecord_inside inside
    (f := fun record => { record with exports := some value })
  refine ⟨.of_kept kept rfl rfl (.refl _) fun _ _ => rfl, ?_, records⟩
  refine sane.later kept.raised (.refl _) fun x compiled => ?_
  have before := (kept.status x).symm.trans compiled
  have other : x ≠ r := by
    rintro rfl
    cases compiling.symm.trans before
  exact ⟨before, congrArg Record.exports ((records x).trans (if_neg other))⟩

/-- A body runs, and its module exports what it has given back. -/
theorem body_answers (below : ∀ e, setup.Feeds e d → functional.Compilable e) {r : RecordId} {body : Script}
    (whole : setup.body? d = some body) (meant : functional.meaning d = Script.content
      (fun id => (setup.resolver.resolve id (some d)).bind functional.meaning) (fun _ => .null) body)
    (sane : w.Sane functional) (clear : ∀ e, setup.Below d e → w.Clear setup e)
    (own : (w.loader.record r).locator = d) (compiling : w.loader.status r = .compiling) {interface : Value}
    (exports : (w.loader.record r).exports = some interface) (rest : List Frame) :
    ∃ w', Leads ⟨w, .runFactory r body :: .replaceInterface r :: .leaveFactory :: .finishCompile r :: rest⟩
        ⟨w', rest⟩ ∧
      Answers functional (setup.UpTo d) (setup.UpTo d) w (functional.meaning d) w' ∧
      w'.loader.status r = .compiled := by
  obtain ⟨content, comes⟩ := Script.content_of_pure (functional.pure whole)
    (fun id => (setup.resolver.resolve id (some d)).bind functional.meaning) fun _ => .null
  let place := "factory " ++ (w.loader.record r).locator.text
  let context : Context := ⟨r, interface⟩
  have entered : Frame.exec w (.runFactory r body) =
      (w.write place "enter" none, [.script ⟨place, some context⟩ body]) := by
    simp only [Frame.exec, enterBody, exports]
    rfl
  have enters : Compiles setup (setup.Below d) (setup.UpTo d) w (w.write place "enter" none) :=
    .of_kept (.refl _) rfl rfl (.refl _) fun _ _ => rfl
  have here : Site.context ⟨place, some context⟩ = some context := rfl
  have midway : Midway functional d body context.record [] (fun _ => .null) (w.write place "enter" none) :=
    ⟨whole, sane.of_loader rfl (.refl _), fun e under => enters.clear (clear e under), own,
      List.nil_subset _, List.forall_mem_nil _⟩
  obtain ⟨w₁, runs, answers⟩ := script_answers below here
    (.replaceInterface r :: .leaveFactory :: .finishCompile r :: rest) (functional.pure whole)
    (List.Subset.refl _) (List.Subset.refl _) midway
  have runs₁ := answers.toCompiles
  have own₁ : (w₁.loader.record r).locator = d := (runs₁.raised.locator r).trans own
  have still : w₁.loader.status r = .compiling := by
    obtain same | ⟨-, under⟩ := runs₁.only r
    · exact same.trans compiling
    · exact absurd (own ▸ under) (functional.acyclic d)
  obtain ⟨v, given, means⟩ : ∃ v, w₁.answer = some v ∧ Means w₁.memory v content := by
    have holds := answers.answer
    rw [comes] at holds
    generalize w₁.answer = answer at *
    cases holds with
    | some means => exact ⟨_, rfl, means⟩
  obtain ⟨replaced, sane₂, records⟩ := setExports_compiles (P := setup.UpTo d) (Q := setup.UpTo d)
    answers.sane still v
  have replaces : Frame.exec w₁ (.replaceInterface r) =
      ({ w₁ with loader := w₁.loader.setExports r v }, []) := by
    simp only [Frame.exec, given]
  let w₃ : World :=
    { w₁ with
      loader := (w₁.loader.setExports r v).leaveFactory }
  have left : Compiles setup (setup.UpTo d) (setup.UpTo d)
      { w₁ with loader := w₁.loader.setExports r v } w₃ :=
    .of_kept (.of_base rfl rfl) rfl rfl (.refl _) fun _ _ => rfl
  have own₃ : (w₃.loader.record r).locator = d :=
    (left.raised.locator r).trans ((replaced.raised.locator r).trans own₁)
  have record₃ : w₃.loader.record r = { w₁.loader.record r with exports := some v } :=
    (records r).trans (if_pos rfl)
  have status₃ : w₃.loader.status r = .compiling := (congrArg Record.status record₃).trans still
  have sane₃ : w₃.Sane functional := sane₂.later left.raised (.refl _) fun x compiled => ⟨compiled, rfl⟩
  have meant₃ : functional.meaning (w₃.loader.record r).locator = some content := by
    rw [own₃, meant, comes]
  obtain ⟨w', finished, last, compiled⟩ := finishCompile_answers (P := setup.UpTo d) (Q := setup.UpTo d)
    sane₃ status₃ (own₃ ▸ .refl) meant₃ (record₃ ▸ .some means) rest
  refine ⟨w', .frame rfl ?_, ?_, compiled⟩
  · rw [entered]
    refine runs.trans (.frame rfl ?_)
    rw [replaces]
    exact .frame rfl finished
  · have ran : Compiles setup (setup.UpTo d) (setup.UpTo d) w w₁ :=
      (enters.trans runs₁).mono (fun e under => under.to_reflTransGen) fun _ upTo => upTo
    rw [meant, comes]
    exact last.after (ran.trans (replaced.trans left))

/-- A ready module begins to be compiled with a new interface. -/
theorem beginCompile_starts {r : RecordId} (ready : w.loader.status r = .ready) :
    Starts w r { w with
      memory := (w.memory.newObject ∅).1
      loader := w.loader.beginCompile r (w.memory.newObject ∅).2 } ∧
    (w.loader.beginCompile r (w.memory.newObject ∅).2).record r =
      (w.loader.record r).beginCompile (w.memory.newObject ∅).2 := by
  have inside := Loader.index_lt_of_known (l := w.loader) (r := r) (by rw [ready]; decide)
  obtain ⟨raised, only⟩ := Loader.Raised.of_update (l := w.loader) (r := r) (s := .compiling)
    (f := (·.beginCompile (w.memory.newObject ∅).2)) (fun _ => rfl) (fun _ => rfl)
    (by rw [ready]; decide) (by rw [ready]; decide)
  have records := Loader.record_updateRecord_inside inside (f := (·.beginCompile (w.memory.newObject ∅).2))
  refine ⟨⟨raised, (only r).trans (if_pos rfl), fun x other => ?_, rfl, rfl, .newObject _ _, rfl⟩, ?_⟩
  · exact (records x).trans (if_neg other)
  · exact (records r).trans (if_pos rfl)

/-- A ready module is compiled. -/
theorem ready_answers (below : ∀ e, setup.Feeds e d → functional.Compilable e) {r : RecordId}
    (sane : w.Sane functional) (clear : ∀ e, setup.Below d e → w.Clear setup e)
    (held : w.loader.entry? d = some r) (ready : w.loader.status r = .ready) (rest : List Frame) :
    ∃ w', Leads ⟨w, .compile r :: rest⟩ ⟨w', rest⟩ ∧
      Answers functional (setup.UpTo d) (setup.UpTo d) w (functional.meaning d) w' := by
  have own := sane.tabular.own held
  obtain ⟨draft, f, here, made, isRead⟩ := sane.factory (r := r) (by rw [ready]; decide)
  rw [own] at here
  obtain ⟨starts, record⟩ := beginCompile_starts ready
  generalize first : w.memory.newObject ∅ = new at *
  obtain ⟨memory, interface⟩ := new
  let w₁ : World :=
    { w with
      memory
      loader := w.loader.beginCompile r interface }
  have sane₁ : w₁.Sane functional := starts.sane sane
  have own₁ : (w₁.loader.record r).locator = d := (starts.raised.locator r).trans own
  have factory : (w₁.loader.record r).factory = some f := (congrArg Record.factory record).trans made
  have can : w.loader.canCompile r = true := by
    rw [Loader.canCompile, ready]
    rfl
  have other (e : Locator) (under : setup.Below d e) : w.loader.entry? e ≠ some r := by
    intro same
    rw [← sane.tabular.own same, own] at under
    exact functional.acyclic d under
  have finished {w' : World} (answers : Answers functional (setup.UpTo d) (setup.UpTo d) w₁
      (functional.meaning d) w') (compiled : w'.loader.status r = .compiled) :
      Answers functional (setup.UpTo d) (setup.UpTo d) w (functional.meaning d) w' :=
    starts.answers (own ▸ .refl) answers compiled
  cases f with
  | function body source =>
    obtain ⟨whole, meant⟩ := functional.meaning_body here isRead
    have step : w.compile r = ({ w₁ with loader := w₁.loader.enterFactory r },
        [.runFactory r body, .replaceInterface r, .leaveFactory, .finishCompile r]) := by
      simp only [compile, ready, can, if_true, first, factory, w₁]
    have enters : Compiles setup (setup.UpTo d) (setup.UpTo d) w₁
        { w₁ with loader := w₁.loader.enterFactory r } :=
      .of_kept (.of_base rfl rfl) rfl rfl (.refl _) fun _ _ => rfl
    obtain ⟨w', leads, answers, compiled⟩ := body_answers
      (w := { w₁ with loader := w₁.loader.enterFactory r }) below whole meant
      (sane₁.later enters.raised (.refl _) fun x compiled => ⟨compiled, rfl⟩)
      (fun e under => enters.clear (starts.clear (clear e under) (other e under))) own₁ starts.own
      (congrArg Record.exports record) rest
    refine ⟨w', .compile (by rw [ready]; decide) ?_, finished (answers.after enters) compiled⟩
    rw [step]
    exact leads
  | value v =>
    obtain ⟨c, meant, means⟩ := functional.meaning_value here isRead
    have step : w.compile r = ({ w₁ with loader := w₁.loader.setExports r v }, [.finishCompile r]) := by
      simp only [compile, ready, can, if_true, first, factory, w₁]
    obtain ⟨exported, sane₂, records⟩ := setExports_compiles (P := setup.UpTo d) (Q := setup.UpTo d)
      sane₁ starts.own v
    have record₂ := (records r).trans (if_pos rfl)
    have own₂ := (exported.raised.locator r).trans own₁
    have holds : Holds memory ((w₁.loader.setExports r v).record r).exports (some c) := by
      rw [record₂]
      exact .some (means.mono starts.memory)
    obtain ⟨w', leads, answers, compiled⟩ := finishCompile_answers (P := setup.UpTo d) (Q := setup.UpTo d)
      sane₂ ((congrArg Record.status record₂).trans starts.own) (own₂ ▸ .refl) (own₂.symm ▸ meant) holds rest
    rw [← meant] at answers
    refine ⟨w', .compile (by rw [ready]; decide) ?_, finished (answers.after exported) compiled⟩
    rw [step]
    exact leads

end World

/-- Every module can be compiled. -/
theorem Setup.Functional.compilable (functional : setup.Functional) (d : Locator) :
    functional.Compilable d := by
  induction d using functional.wf.induction with
  | _ d below =>
    intro w r rest sane clear held
    have own := sane.tabular.own held
    obtain ⟨⟨r', held', state⟩, uncompiling⟩ := clear d .refl
    obtain rfl : r' = r := Option.some.inj (held'.symm.trans held)
    have awake := uncompiling r' held
    have answered (answer : Option Value) :
        World.Compiles setup (setup.UpTo d) (setup.UpTo d) w { w with answer } :=
      .of_kept (.refl _) rfl rfl (.refl _) fun _ _ => rfl
    by_cases compiled : w.loader.status r' = .compiled
    · have step : w.compile r' = ({ w with answer := (w.loader.record r').exports }, []) := by
        simp only [World.compile, compiled]
      refine ⟨{ w with answer := (w.loader.record r').exports }, .compile (by rw [compiled]; decide) ?_,
        answered _, sane.of_loader rfl (.refl _), ?_⟩
      · rw [step]
        exact .here _
      · exact own ▸ sane.compiled r' compiled
    obtain later | ⟨fetched, bare⟩ := state
    · have ready : w.loader.status r' = .ready := by
        revert later awake compiled
        cases w.loader.status r' <;> simp [Status.le_iff, Status.code]
      exact World.ready_answers below sane (fun e under => clear e under.to_reflTransGen) held ready rest
    · have unpatched : w.loader.hasPatches r' = false := by
        rw [Loader.hasPatches, sane.tabular.patches]
        exact List.any_eq_false.mpr fun key _ => Bool.false_ne_true
      have step : w.compile r' = ({ w with answer := none }, []) := by
        simp only [World.compile, fetched, Loader.canCompile, unpatched]
        rfl
      refine ⟨{ w with answer := none }, .compile (by rw [fetched]; decide) ?_, answered none,
        sane.of_loader rfl (.refl _), ?_⟩
      · rw [step]
        exact .here _
      · rw [functional.meaning_eq, bare]
        exact .none

end

end ModuleLoader
