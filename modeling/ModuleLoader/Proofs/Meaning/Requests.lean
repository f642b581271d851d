import ModuleLoader.Proofs.Effects.Compiling
import ModuleLoader.Proofs.Meaning.Compiling
import ModuleLoader.Proofs.Meaning.Reports

/-! Requests on their way from the page to the callback. While nothing is being compiled, all that is left to
be done carries what the page has asked for, and the interfaces that are there already hold what they are to
mean. -/
namespace ModuleLoader

open Loader (Sound Shifts Loads Tabular)

/-- Actions that look at values or at the loader, and change no object. -/
def Action.looks : Action → Bool
  | .value a => a.looks
  | .query _ => true
  | _ => false

namespace Setup

variable (setup : Setup)

/-- The locator that the page means by an identifier. -/
def meant (id : String) : Option Locator := setup.resolver.resolve id (some setup.config.root)

theorem wanted_eq (ids : List String) : setup.wanted ids = (ids.map setup.meant).filterMap id := by
  rw [List.filterMap_map]
  rfl

end Setup

/-- What the page gets for an identifier: nothing if it does not resolve. -/
noncomputable def Setup.Functional.answer {setup : Setup} (functional : setup.Functional) (id : String) :
    Option Content := (setup.meant id).bind functional.meaning

/-- The callback that the page passes on, and the identifiers of the modules that it asks for. -/
def Machine.asking? (m : Machine) : Option (Callback × List String) :=
  match m.stack with
  | .script site (.useModules ids tag body :: _) :: _ =>
    some (⟨m.world.issued, site.place ++ " > " ++ tag, body⟩, ids)
  | _ => none

/-- What the page has asked for, latest first. -/
def asked (past : List Machine) : List (Callback × List String) := past.filterMap Machine.asking?

section

variable {setup : Setup} (functional : setup.Functional) (past : List Machine)

/-- What the page has asked for on behalf of a callback, which only looks at what it gets. -/
structure Seeks (setup : Setup) (past : List Machine) (callback : Callback) (ids : List String) : Prop where
  asked : (callback, ids) ∈ asked past
  passed : .passed callback.number (setup.wanted ids) ∈ occurrences past
  hosted : Action.allHosted Action.looks callback.body = true

def Receiver.Seeks (setup : Setup) (past : List Machine) : Receiver → List String → Prop
  | .host callback, ids => ModuleLoader.Seeks setup past callback ids
  | .discard _, _ => False

def Continuation.Carries (setup : Setup) (past : List Machine) : Continuation → Prop
  | .arrive .. => True
  | .request ids receiver => receiver.Seeks setup past ids
  | .preload locators receiver | .gather locators receiver =>
    ∃ ids, receiver.Seeks setup past ids ∧ locators = ids.map setup.meant
  | .call _ => False

/-- A frame carries what the page has asked for, and the interfaces that are there hold what they are to
mean. No module is being compiled. -/
def Frame.Carries (m : Memory) : Frame → Prop
  | .script _ actions => Action.allHosted Action.looks actions = true
  | .conclude _ conclusion => ∃ action reply, conclusion = .reply action reply
  | .load _ next | .resume next | .preload next => next.Carries setup past
  | .entries .. | .settled .. | .retrieved _ | .completeRest .. => True
  | .request referrer ids receiver => referrer = none ∧ receiver.Seeks setup past ids
  | .gather locators interfaces receiver => ∃ done ids, receiver.Seeks setup past (done ++ ids) ∧
    locators = ids.map setup.meant ∧ List.Forall₂ (Holds m) interfaces (done.map functional.answer)
  | .deliver receiver interfaces => ∃ ids, receiver.Seeks setup past ids ∧
    List.Forall₂ (Holds m) interfaces (ids.map functional.answer)
  | _ => False

/-- Nothing is being compiled, and all that is left to be done carries what the page has asked for. -/
structure Loading (stack : List Frame) (w : World) : Prop where
  sane : w.Sane functional
  idle : ∀ r, w.loader.status r ≠ .compiling
  frames : ∀ f ∈ stack, f.Carries functional past w.memory
  loads : ∀ b next, (w.loader.barrier b).onDone = some next → next.Carries setup past

end

section

variable {setup : Setup} {functional : setup.Functional} {past past' : List Machine}

theorem Receiver.Seeks.mono (later : past ⊆ past') {receiver : Receiver} {ids : List String}
    (seeks : receiver.Seeks setup past ids) : receiver.Seeks setup past' ids := by
  cases receiver with
  | host callback =>
    obtain ⟨asked, passed, hosted⟩ := seeks
    obtain ⟨moment, member, asking⟩ := List.mem_filterMap.mp asked
    exact ⟨List.mem_filterMap.mpr ⟨moment, later member, asking⟩, (List.map_subset _ later) passed, hosted⟩
  | discard next => exact seeks

theorem Continuation.Carries.mono (later : past ⊆ past') {next : Continuation}
    (carries : next.Carries setup past) : next.Carries setup past' := by
  cases next with
  | arrive => trivial
  | request ids receiver => exact Receiver.Seeks.mono later carries
  | preload locators receiver | gather locators receiver =>
    obtain ⟨ids, seeks, same⟩ := carries
    exact ⟨ids, seeks.mono later, same⟩
  | call callback => exact carries

theorem Frame.Carries.mono (later : past ⊆ past') {m m' : Memory} (ext : m.Extends m') {f : Frame}
    (carries : f.Carries functional past m) : f.Carries functional past' m' := by
  cases f with
  | load _ next | resume next | preload next => exact Continuation.Carries.mono later carries
  | request referrer ids receiver => exact ⟨carries.1, carries.2.mono later⟩
  | gather locators interfaces receiver =>
    obtain ⟨done, ids, seeks, same, holds⟩ := carries
    exact ⟨done, ids, seeks.mono later, same, holds.imp fun _ _ => Holds.mono ext⟩
  | deliver receiver interfaces =>
    obtain ⟨ids, seeks, holds⟩ := carries
    exact ⟨ids, seeks.mono later, holds.imp fun _ _ => Holds.mono ext⟩
  | _ => exact carries

namespace World

variable {w : World}

theorem evaluate_memory (w : World) (resource : PhysicalId) : (w.evaluate resource).memory = w.memory := rfl

theorem enter_memory (w : World) (locator : Locator) (b : BarrierId) :
    (w.enter locator b).1.memory = w.memory := by
  have asked (w : World) (token : FetchToken) : (w.retrieve token).1.memory = w.memory := by
    unfold retrieve
    dsimp only
    split <;> rfl
  unfold enter
  dsimp only
  split
  · rfl
  · split
    · rfl
    · rfl
    · exact asked _ _

theorem settle_memory (w : World) (locator : Locator) (b : BarrierId) :
    (w.settle locator b).1.memory = w.memory := by
  unfold settle
  dsimp only
  split <;> rfl

theorem bindArguments_memory (w : World) (interfaces : List (Option Value)) :
    (w.bindArguments interfaces).memory = w.memory := by
  unfold bindArguments
  generalize interfaces.zipIdx = numbered
  induction numbered generalizing w with
  | nil => rfl
  | cons argument rest ih => exact (ih _).trans (w.store_memory _ _)

end World

theorem Frame.carries_reply {m : Memory} {site : Site} {action : String} {reply : Reply} :
    (conclude site (.reply action reply)).Carries functional past m := ⟨action, reply, rfl⟩

/-- The page means the same by an identifier at any time. -/
theorem Loader.Tabular.meant {l : Loader} (tabular : Tabular setup l) (id : String) :
    l.resolve id none = setup.meant id := by
  rw [Setup.meant, ← tabular.resolver, ← tabular.config]
  rfl

/-! The work of single frames. -/

/-- A step loads, and leaves frames that carry what was asked for. -/
structure Carried (functional : setup.Functional) (past : List Machine) (w w' : World) (frames : List Frame) :
    Prop where
  shifts : Shifts w.loader w'.loader
  memory : w.memory.Extends w'.memory
  frames : ∀ f ∈ frames, f.Carries functional past w'.memory

variable {w w' : World} {frames : List Frame}

/-- Nothing but the frames is new. -/
theorem Carried.still (loader : w'.loader = w.loader) (memory : w'.memory = w.memory)
    (carries : ∀ f ∈ frames, f.Carries functional past w.memory) : Carried functional past w w' frames :=
  ⟨.of_eq loader, memory ▸ .refl _, fun f member => memory.symm ▸ carries f member⟩

theorem Carried.append (carried : Carried functional past w w' frames) {f : Frame}
    (carries : f.Carries functional past w'.memory) : Carried functional past w w' (frames ++ [f]) := by
  refine ⟨carried.shifts, carried.memory, List.forall_mem_append.mpr ⟨carried.frames, ?_⟩⟩
  exact List.forall_mem_singleton.mpr carries

/-- An entry of a load may be retrieved anew. -/
theorem Carried.entered {locator : Locator} {others : List Locator} {b : BarrierId} {rest : List Frame}
    (session : Session setup past ⟨w, .entries (locator :: others) b :: rest⟩) (listed : setup.Listed)
    (answers : setup.policy.Answers) :
    Carried functional past' w (Frame.exec w (.entries (locator :: others) b)).1
      (Frame.exec w (.entries (locator :: others) b)).2 := by
  have work := session.work listed answers
  have memory : (Frame.exec w (.entries (locator :: others) b)).1.memory = w.memory :=
    w.enter_memory locator b
  generalize (Frame.exec w (.entries (locator :: others) b)).1 = w' at *
  generalize (Frame.exec w (.entries (locator :: others) b)).2 = frames at *
  have ext : w.memory.Extends w'.memory := memory ▸ .refl _
  cases work with
  | quiet isQuiet => cases isQuiet
  | relayed relay => cases relay
  | ended =>
    exact .still rfl rfl (List.forall_mem_cons.mpr ⟨trivial, List.forall_mem_singleton.mpr trivial⟩)
  | joined locator later b waiters flying loader =>
    refine ⟨.of_records ?_ ?_, ext, List.forall_mem_singleton.mpr trivial⟩ <;> rw [loader] <;> rfl
  | asked locator later b absent anonymous loader files policy requests handed =>
    have made := w.loader.newRecord_shifts locator (s := .fetching) (by decide)
    refine ⟨made.trans (.of_records ?_ ?_), ext, ?_⟩
    · rw [loader]
      rfl
    · rw [loader]
      rfl
    · obtain ⟨rfl, -⟩ | ⟨rfl, -⟩ := handed
      · exact List.forall_mem_singleton.mpr trivial
      · exact List.forall_mem_cons.mpr ⟨trivial, List.forall_mem_singleton.mpr trivial⟩

namespace World

theorem completeTaken_carried (sound : Sound w.loader) (site : Site) (action : String)
    (taken : Option (World × FetchToken)) (same : ∀ w' token, taken = some (w', token) →
      w'.loader = w.loader ∧ w'.memory = w.memory) :
    Carried functional past w (w.completeTaken site action taken).1
      (w.completeTaken site action taken).2 := by
  unfold completeTaken
  split
  · exact .still rfl rfl (List.forall_mem_singleton.mpr Frame.carries_reply)
  · split
    · rename_i w' token
      obtain ⟨loader, memory⟩ := same w' token rfl
      refine ⟨(Shifts.of_eq loader).trans (evaluate_loads (loader ▸ sound) _).toShifts, ?_, ?_⟩
      · rw [evaluate_memory, memory]
        exact .refl _
      · exact List.forall_mem_cons.mpr ⟨trivial, List.forall_mem_singleton.mpr Frame.carries_reply⟩
    · exact .still rfl rfl (List.forall_mem_singleton.mpr Frame.carries_reply)

theorem act_carried (sound : Sound w.loader) (tabular : Tabular setup w.loader) (site : Site)
    {action : Action} (hosted : action.isHosted Action.looks = true) (later : Script) (below : List Frame) :
    Carried functional (⟨w, .script site (action :: later) :: below⟩ :: past) w (w.act site action).1
      (w.act site action).2 := by
  have none (m : Memory) : ∀ f ∈ ([] : List Frame),
      f.Carries functional (⟨w, .script site (action :: later) :: below⟩ :: past) m :=
    List.forall_mem_nil _
  cases action with
  | value a =>
    obtain ⟨frames, loader, -, memory, -⟩ := w.act_value site a
    refine ⟨.of_eq loader, memory ▸ w.actOnValues_extends site hosted, ?_⟩
    rw [frames]
    exact none _
  | query q => exact .still rfl rfl (none _)
  | useModules ids tag body =>
    refine .still rfl rfl (List.forall_mem_cons.mpr ⟨⟨?_, ?_, hosted⟩, ?_⟩)
    · exact List.mem_filterMap.mpr ⟨_, List.mem_cons_self .., rfl⟩
    · rw [← tabular.wanted]
      exact List.mem_cons_self ..
    · exact List.forall_mem_singleton.mpr Frame.carries_reply
  | complete resource =>
    refine completeTaken_carried sound site _ _ fun w' token taken => ?_
    obtain ⟨-, rfl⟩ := takeQueued?_taken taken
    exact ⟨rfl, rfl⟩
  | completeNext =>
    refine completeTaken_carried sound site _ _ fun w' token taken => ?_
    obtain ⟨-, rfl⟩ := takeNext?_taken taken
    exact ⟨rfl, rfl⟩
  | completeAll =>
    simp only [act]
    split
    · exact .still rfl rfl (List.forall_mem_singleton.mpr trivial)
    · exact .still rfl rfl (none _)
  | _ => cases hosted

end World

/-- What has waited for a load goes on with what was asked for. -/
theorem Loading.arrived {stack : List Frame} (loading : Loading functional past stack w)
    (later : past ⊆ past') {b : BarrierId} {loaded : Option RecordId}
    (arrival : Arrival w b loaded w' frames) : ∀ f ∈ frames, f.Carries functional past' w'.memory := by
  intro f member
  obtain ⟨next, rfl, waits, -⟩ := arrival.resumes f member
  exact (loading.loads b next waits).mono later

theorem Carried.settled {locator : Locator} {b : BarrierId} {rest : List Frame}
    (session : Session setup past ⟨w, .settled locator b :: rest⟩) (listed : setup.Listed)
    (answers : setup.policy.Answers)
    (loading : Loading functional past (.settled locator b :: rest) w) (later : past ⊆ past') :
    Carried functional past' w (Frame.exec w (.settled locator b)).1
      (Frame.exec w (.settled locator b)).2 := by
  refine ⟨(w.settle_loads locator b).toShifts, w.settle_memory locator b ▸ .refl _, ?_⟩
  have work := session.work listed answers
  generalize (Frame.exec w (.settled locator b)).1 = w' at *
  generalize (Frame.exec w (.settled locator b)).2 = frames at *
  cases work with
  | quiet isQuiet => cases isQuiet
  | relayed relay => cases relay
  | missing locator b r held fetched arrival => exact loading.arrived later arrival
  | ready locator b r held saved bare arrival => exact loading.arrived later arrival
  | waits => exact List.forall_mem_singleton.mpr trivial

theorem Carried.arrived {b : BarrierId} {r : RecordId} {rest : List Frame}
    (session : Session setup past ⟨w, .resume (.arrive b r) :: rest⟩) (listed : setup.Listed)
    (answers : setup.policy.Answers)
    (loading : Loading functional past (.resume (.arrive b r) :: rest) w) (later : past ⊆ past') :
    Carried functional past' w (Frame.exec w (.resume (.arrive b r))).1
      (Frame.exec w (.resume (.arrive b r))).2 := by
  have saved : .saved ≤ w.loader.status r := (session.plain.frames _ (List.mem_cons_self ..)).2
  have loaded (x : RecordId) (here : some r = some x) : .saved ≤ w.loader.status x := by
    cases here
    exact saved
  refine ⟨(Loader.arrive_loads loaded b).toShifts, .refl _, ?_⟩
  have work := session.work listed answers
  generalize (Frame.exec w (.resume (.arrive b r))).1 = w' at *
  generalize (Frame.exec w (.resume (.arrive b r))).2 = frames at *
  cases work with
  | quiet isQuiet => cases isQuiet
  | relayed relay => cases relay
  | arrived b r saved arrival => exact loading.arrived later arrival

/-- An identifier that resolves to nothing answers with nothing, and where none is left the interfaces are
handed over. -/
theorem Carried.gathered {locators : List (Option Locator)} {interfaces : List (Option Value)}
    {receiver : Receiver}
    (carries : (Frame.gather locators interfaces receiver).Carries functional past w.memory)
    (other : ∀ d later, locators ≠ some d :: later) :
    Carried functional past w (w.gather interfaces receiver locators).1
      (w.gather interfaces receiver locators).2 := by
  obtain ⟨done, ids, seeks, rfl, holds⟩ := carries
  cases ids with
  | nil => exact .still rfl rfl (List.forall_mem_singleton.mpr ⟨done, List.append_nil done ▸ seeks, holds⟩)
  | cons id ids =>
    cases nowhere : setup.meant id with
    | some d =>
      rw [List.map_cons, nowhere] at other
      exact absurd rfl (other d (ids.map setup.meant))
    | none =>
      have step : w.gather interfaces receiver ((id :: ids).map setup.meant) =
          (w, [.gather (ids.map setup.meant) (interfaces ++ [none]) receiver]) := by
        simp only [World.gather, List.map_cons, nowhere, Option.bind_none]
      have nothing : functional.answer id = none := by
        rw [Setup.Functional.answer, nowhere, Option.bind_none]
      rw [step]
      refine .still rfl rfl (List.forall_mem_singleton.mpr ⟨done ++ [id], ids, ?_, rfl, ?_⟩)
      · exact List.append_cons done id ids ▸ seeks
      · rw [List.map_append, List.map_singleton, nothing]
        exact List.rel_append holds (.cons .none .nil)

/-- An action of the page leaves the rest of its script. -/
theorem Carried.scripted {site : Site} {actions : Script} {rest : List Frame} (sound : Sound w.loader)
    (tabular : Tabular setup w.loader) (hosted : Action.allHosted Action.looks actions = true) :
    Carried functional (⟨w, .script site actions :: rest⟩ :: past) w (Frame.exec w (.script site actions)).1
      (Frame.exec w (.script site actions)).2 := by
  cases actions with
  | nil => exact .still rfl rfl (List.forall_mem_nil _)
  | cons action actions =>
    have each : (action.isHosted Action.looks && Action.allHosted Action.looks actions) = true := hosted
    rw [Bool.and_eq_true] at each
    have goes : World.endsScript action = false := by
      revert each
      cases action <;> simp [World.endsScript, Action.isHosted, Action.looks]
    simp only [Frame.exec, World.runScript, goes]
    exact (World.act_carried sound tabular site each.1 actions rest).append each.2

/-- Whatever a frame does that compiles nothing, what it leaves carries what was asked for. -/
theorem Loading.carried (functional : setup.Functional) (answers : setup.policy.Answers) {frame : Frame}
    {rest : List Frame} (session : Session setup past ⟨w, frame :: rest⟩)
    (loading : Loading functional past (frame :: rest) w)
    (other : ∀ d locators interfaces receiver, frame ≠ .gather (some d :: locators) interfaces receiver) :
    Carried functional (⟨w, frame :: rest⟩ :: past) w (frame.exec w).1 (frame.exec w).2 := by
  have sound := session.tracked.sound
  have tabular := session.plain.tabular
  have later : past ⊆ ⟨w, frame :: rest⟩ :: past := List.subset_cons_self ..
  have carries := (loading.frames frame (List.mem_cons_self ..)).mono later (.refl _)
  have none (m : Memory) : ∀ f ∈ ([] : List Frame), f.Carries functional (⟨w, frame :: rest⟩ :: past) m :=
    List.forall_mem_nil _
  cases frame with
  | script site actions => exact .scripted sound tabular carries
  | conclude site conclusion =>
    obtain ⟨action, reply, rfl⟩ := carries
    exact .still rfl rfl (none _)
  | load locators next =>
    simp only [Frame.exec, World.load]
    split
    · exact .still rfl rfl (List.forall_mem_singleton.mpr carries)
    · exact ⟨.of_records rfl rfl, .refl _, List.forall_mem_singleton.mpr trivial⟩
  | entries locators b =>
    cases locators with
    | nil => exact .still rfl rfl (none _)
    | cons locator others => exact .entered session functional.toListed answers
  | settled locator b => exact .settled session functional.toListed answers loading later
  | resume next =>
    cases next with
    | arrive b r => exact .arrived session functional.toListed answers loading later
    | request ids receiver => exact .still rfl rfl (List.forall_mem_singleton.mpr ⟨rfl, carries⟩)
    | preload locators receiver => exact .still rfl rfl (List.forall_mem_singleton.mpr carries)
    | gather locators receiver =>
      obtain ⟨ids, seeks, same⟩ := carries
      exact .still rfl rfl (List.forall_mem_singleton.mpr ⟨[], ids, seeks, same, .nil⟩)
    | call callback => cases carries
  | request referrer ids receiver =>
    obtain ⟨rfl, seeks⟩ := carries
    refine .still rfl rfl (List.forall_mem_singleton.mpr ⟨ids, seeks, ?_⟩)
    exact List.map_congr_left fun id _ => tabular.meant id
  | preload next =>
    have same : w.preload next = (w, [.resume next]) := by rw [World.preload, tabular.preloads]
    simp only [Frame.exec, same]
    exact .still rfl rfl (List.forall_mem_singleton.mpr carries)
  | gather locators interfaces receiver =>
    exact .gathered carries fun d later same => other d later interfaces receiver (same ▸ rfl)
  | deliver receiver interfaces =>
    obtain ⟨ids, seeks, -⟩ := carries
    cases receiver with
    | host callback =>
      refine .still (World.bindArguments_same _ _).loader (World.bindArguments_memory _ _) ?_
      exact List.forall_mem_singleton.mpr seeks.hosted
    | discard next => cases seeks
  | retrieved token =>
    refine ⟨(Loader.finishFetch_loads sound token).toShifts, .refl _, fun f member => ?_⟩
    obtain ⟨waiter, -, rfl⟩ := List.mem_map.mp member
    trivial
  | completeRest site done =>
    simp only [Frame.exec]
    split
    · rename_i w' token taken
      obtain ⟨-, rfl⟩ := World.takeNext?_taken taken
      refine ⟨(World.evaluate_loads sound _).toShifts, .refl _, ?_⟩
      exact List.forall_mem_cons.mpr ⟨trivial, List.forall_mem_singleton.mpr trivial⟩
    · exact .still rfl rfl (none _)
  | _ => cases carries

end

end ModuleLoader
