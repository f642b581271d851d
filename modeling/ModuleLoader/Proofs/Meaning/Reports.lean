import ModuleLoader.Proofs.Listed.Session
import ModuleLoader.Proofs.Meaning.Table

/-! Nothing is reported in a session over a table whose dependencies do not lead back. Loading and compiling
report nothing but circles, and there are none. -/
namespace ModuleLoader

open Relation (TransGen)
open Loader (Sound Tabular)

namespace Loader

/-! No circles. -/

section

variable {setup : Setup} {l : Loader}

/-- A walk along dependencies does not come back to the path that it is on. -/
theorem waitingPath?_none (functional : setup.Functional) (tabular : Tabular setup l) (fuel : Nat)
    {path : List Locator} {d : Locator} (below : ∀ p ∈ path, TransGen setup.Feeds d p) :
    l.waitingPath? fuel path d = none := by
  induction fuel generalizing path d with
  | zero => rfl
  | succ fuel ih =>
    cases held : l.entry? d with
    | none => simp [waitingPath?, held]
    | some r =>
      by_cases saved : l.status r = .saved
      · have needed : (l.record r).dependencies = setup.dependencies d := by
          rw [(tabular.full (saved ▸ Status.le_refl _)).2, tabular.own held]
        have further {e p : Locator} (feeds : e ∈ setup.dependencies d) (member : p ∈ d :: path) :
            TransGen setup.Feeds e p := by
          rcases List.mem_cons.mp member with rfl | earlier
          · exact .single feeds
          · exact .head feeds (below p earlier)
        rw [waitingPath?_step held saved, tabular.own held, needed, if_neg, List.findSome?_eq_none_iff]
        · exact fun e feeds => ih fun p member => further feeds member
        · rw [List.any_eq_true]
          rintro ⟨e, feeds, back⟩
          exact functional.acyclic e (further feeds (List.contains_iff_mem.mp back))
      · simp [waitingPath?, held, show (l.record r).status ≠ .saved from saved]

/-- No dependency of a saved module closes a circle. -/
theorem circle?_none (functional : setup.Functional) (tabular : Tabular setup l) {d e : Locator}
    (feeds : setup.Feeds e d) : l.circle? d e = none := by
  rw [circle?, waitingPath?_none functional tabular, Option.map_none]
  intro p member
  exact List.mem_singleton.mp member ▸ .single feeds

/-- All dependencies of a saved module are waited for. -/
theorem pureDependencies_functional (functional : setup.Functional) (tabular : Tabular setup l)
    {r : RecordId} (saved : .saved ≤ l.status r) :
    l.pureDependencies r = (setup.dependencies (l.record r).locator, []) := by
  simp only [pureDependencies, (tabular.full saved).2, List.filterMap_map, Prod.mk.injEq]
  constructor
  · refine (List.filterMap_congr fun e feeds => ?_).trans List.filterMap_some
    simp [circle?_none functional tabular feeds]
  · refine List.filterMap_eq_nil_iff.mpr fun e feeds => ?_
    simp [circle?_none functional tabular feeds]

end

/-! Silence. -/

/-- Nothing has been reported. -/
structure Silent (l l' : Loader) : Prop where
  sink : l'.sink = l.sink
  trace : ∀ e ∈ l'.trace, e ∈ l.trace ∨ e.isReport = false

namespace Silent

theorem of_same {l l' : Loader} (sink : l'.sink = l.sink) (trace : l'.trace = l.trace) : Silent l l' :=
  ⟨sink, fun _ member => .inl (trace ▸ member)⟩

theorem of_eq {l l' : Loader} (same : l' = l) : Silent l l' := same ▸ .of_same rfl rfl

theorem refl (l : Loader) : Silent l l := .of_same rfl rfl

theorem trans {a b c : Loader} (ab : Silent a b) (bc : Silent b c) : Silent a c := by
  refine ⟨bc.sink.trans ab.sink, fun e member => ?_⟩
  obtain earlier | plain := bc.trace e member
  · exact ab.trace e earlier
  · exact .inr plain

/-- Something other than a report can be followed. -/
theorem of_note {l l' : Loader} (e : Event) (plain : e.isReport = false) (sink : l'.sink = l.sink)
    (trace : l'.trace = l.trace.push e) : Silent l l' := by
  refine ⟨sink, fun x member => ?_⟩
  rw [trace, Array.mem_push] at member
  obtain earlier | rfl := member
  · exact .inl earlier
  · exact .inr plain

end Silent

/-! Retrieving. -/

theorem setStatus_silent (l : Loader) (r : RecordId) (s : Status) : Silent l (l.setStatus r s) :=
  .of_note _ rfl rfl rfl

/-- What needs no permission to report reports nothing. -/
theorem Edits.silent {permit : Permit} {l l' : Loader} (edits : Edits permit l l') (mute : ¬ permit.reports) :
    Silent l l' := by
  refine edits.lift .refl .trans fun edit => ?_
  cases edit with
  | noted e plain => exact .of_note e plain rfl rfl
  | reported d may => exact absurd may mute
  | fetched => exact setStatus_silent _ _ _
  | _ => exact .of_same rfl rfl

theorem arrive_silent (l : Loader) (b : BarrierId) (loaded : Option RecordId) :
    Silent l (l.arrive b loaded).1 := by
  have counted (l : Loader) : Silent l (l.countDown b).1 := by
    unfold countDown
    dsimp only
    split <;> exact .of_same rfl rfl
  cases loaded with
  | none => exact counted l
  | some r =>
    refine Silent.trans ?_ (counted (l.markReady r))
    unfold markReady
    split
    · exact l.setStatus_silent r _
    · exact .refl l

end Loader

open Loader (Silent)

namespace World

variable {setup : Setup} {w : World}

/-- What the table holds is registered without a report. -/
theorem evaluate_silent (unnamed : w.loader.anonymous = none)
    (offers : ∀ locator, w.fetcher.Offers setup locator) (locator : Locator) :
    Silent w.loader (w.evaluate (.ofLocator locator)).loader := by
  obtain ⟨anonymous, -, same⟩ := evaluate_listed (offers locator) unnamed
  rw [same]
  exact .of_same rfl rfl

theorem taken_silent {w' : World} {token : FetchToken} (unnamed : w.loader.anonymous = none)
    (offers : ∀ locator, w.fetcher.Offers setup locator) (resourced : w.Resourced)
    (taken : token ∈ w.fetcher.queue ∧ w' = { w with fetcher.queue := w.fetcher.queue.erase token }) :
    Silent w.loader (w'.evaluate token.resource).loader := by
  obtain ⟨queued, rfl⟩ := taken
  rw [resourced token queued]
  exact evaluate_silent (w := { w with fetcher := _ }) unnamed (fun d => (offers d).of_files rfl) _

theorem getDependency_silent (w : World) (c : Context) (id : String) :
    Silent w.loader (w.getDependency c id).1.loader := by
  unfold getDependency
  dsimp only
  split
  · exact .refl _
  · split
    · exact .refl _
    · split <;> exact .of_same rfl rfl

theorem act_silent (unnamed : w.loader.anonymous = none)
    (offers : ∀ locator, w.fetcher.Offers setup locator) (resourced : w.Resourced) (site : Site)
    {action : Action} (hosted : action.isHosted Action.isLocal = true) :
    Silent w.loader (w.act site action).1.loader := by
  have completed (name : String) (taken : Option (World × FetchToken))
      (spec : ∀ w' token, taken = some (w', token) →
        token ∈ w.fetcher.queue ∧ w' = { w with fetcher.queue := w.fetcher.queue.erase token }) :
      Silent w.loader (w.completeTaken site name taken).1.loader := by
    unfold completeTaken
    split
    · exact .refl _
    · split
      · rename_i w' token
        exact taken_silent unnamed offers resourced (spec w' token rfl)
      · exact .refl _
  cases action with
  | value a =>
    have same := (w.actOnValues_same site a).loader
    simp only [act]
    generalize w.actOnValues site a = made at *
    obtain ⟨w', reply⟩ := made
    cases reply <;> exact .of_eq same
  | get id into key =>
    simp only [act]
    split
    · exact .refl _
    · exact w.getDependency_silent _ id
  | giveBackDependency id =>
    simp only [act]
    split
    · exact .refl _
    · exact w.getDependency_silent _ id
  | complete resource => exact completed _ _ fun _ _ taken => takeQueued?_taken taken
  | completeNext => exact completed _ _ fun _ _ taken => takeNext?_taken taken
  | completeAll =>
    simp only [act]
    split <;> exact .refl _
  | query | giveBack | useModules => exact .refl _
  | _ => cases hosted

theorem compile_silent (w : World) (r : RecordId) : Silent w.loader (w.compile r).1.loader := by
  unfold compile
  split
  · exact .refl _
  · exact .refl _
  · split
    · dsimp only
      split <;> exact .of_same rfl rfl
    · exact .refl _

end World

/-- Whatever a frame does, it reports nothing. -/
theorem Session.silent {setup : Setup} (functional : setup.Functional) (answers : setup.policy.Answers)
    {past : List Machine} {w : World} {frame : Frame} {rest : List Frame}
    (session : Session setup past ⟨w, frame :: rest⟩) : Silent w.loader (frame.exec w).1.loader := by
  have tabular := session.plain.tabular
  have offers := session.plain.offers
  have resourced : w.Resourced := fun token queued => session.resourced token
    (session.tracked.outstanding.subset (List.mem_append_right _ (List.mem_append_left _ queued)))
  obtain ⟨isPlain, backed⟩ := session.plain.frames frame (List.mem_cons_self ..)
  cases frame with
  | script site actions =>
    cases actions with
    | nil => exact .refl _
    | cons action later =>
      simp only [Frame.isPlain, Action.allHosted, Bool.and_eq_true] at isPlain
      simp only [Frame.exec, World.runScript]
      split <;> exact World.act_silent (session.plain.unnamed rfl) offers resourced site isPlain.1.1
  | conclude site conclusion => exact .of_eq (w.conclude_same site conclusion).loader
  | load locators next =>
    simp only [Frame.exec, World.load]
    split
    · exact .refl _
    · exact .of_same rfl rfl
  | entries locators b =>
    have work := session.work functional.toListed answers
    generalize (Frame.exec w (.entries locators b)).1 = w' at *
    generalize (Frame.exec w (.entries locators b)).2 = frames at *
    cases work with
    | quiet isQuiet => cases isQuiet
    | relayed relay loader => exact .of_eq loader
    | ended => exact .refl _
    | joined locator later b waiters flying loader =>
      rw [loader]
      exact .of_note _ rfl rfl rfl
    | asked locator later b absent anonymous loader =>
      rw [loader]
      exact .of_note _ rfl rfl rfl
  | settled locator b =>
    obtain ⟨r, held, -⟩ := backed
    have same : (w.loader.settledEntry locator).1 = w.loader := by
      simp only [Loader.settledEntry, held]
      split
      · rfl
      · rename_i saved
        rw [Loader.pureDependencies_functional functional tabular (Nat.not_lt.mp saved)]
        rfl
    simp only [Frame.exec, World.settle]
    generalize w.loader.settledEntry locator = read at *
    obtain ⟨l, entry⟩ := read
    obtain rfl : l = w.loader := same
    cases entry with
    | missing => exact w.loader.arrive_silent b none
    | ready r => exact w.loader.arrive_silent b (some r)
    | waits => exact .refl _
  | resume next =>
    cases next with
    | arrive b r => exact w.loader.arrive_silent b (some r)
    | call callback => cases isPlain
    | _ => exact .refl _
  | preload next =>
    have none : w.preload next = (w, [.resume next]) := by rw [World.preload, tabular.preloads]
    exact .of_eq (congrArg (·.1.loader) none)
  | gather locators interfaces receiver =>
    cases locators with
    | nil => exact .refl _
    | cons locator later =>
      simp only [Frame.exec, World.gather]
      split <;> exact .refl _
  | deliver receiver interfaces =>
    cases receiver with
    | host callback => exact .of_eq (World.bindArguments_same _ _).loader
    | discard next => cases isPlain
  | retrieved token => exact (w.loader.finishFetch_edits token).silent id
  | compile r => exact w.compile_silent r
  | replaceInterface r =>
    simp only [Frame.exec]
    split
    · exact .of_same rfl rfl
    · exact .refl _
  | finishCompile r => exact w.loader.setStatus_silent r _
  | completeRest site done =>
    simp only [Frame.exec]
    split
    · rename_i w' token taken
      exact World.taken_silent (session.plain.unnamed rfl) offers resourced (World.takeNext?_taken taken)
    · exact .refl _
  | request | collect | runFactory | runPatch | leaveFactory | applyPatches | answerExports =>
    exact .of_same rfl rfl

end ModuleLoader
