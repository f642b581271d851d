import ModuleLoader.Proofs.Effects.Exec
import ModuleLoader.Proofs.Effects.Records

/-! What one step does to records and to the modules whose factories are running. The main statement is
`Frame.turn`: a step lets records move on, or it takes one compilation a stage further. -/
namespace ModuleLoader

open Relation (ReflTransGen)
/-- A change that is made to a record apart from the beginning and the end of its compilation. -/
inductive Record.Moves : Record → Record → Prop where
  | loads {r r' : Record} (change : Loads r r') : Moves r r'
  | initiated {r : Record} (initiator : RecordId) : Moves r { r with initiator := some initiator }
  | exported {r : Record} (value : Value) : Moves r { r with exports := some value }

namespace Record.Moves

variable {r r' : Record}

theorem rises (change : Moves r r') : r.status ≤ r'.status := by
  cases change with
  | loads change => exact change.rises
  | initiated | exported => exact Status.le_refl _

theorem late (change : Moves r r') (late : .compiling ≤ r'.status) : r'.status = r.status := by
  cases change with
  | loads change => exact change.late late
  | initiated | exported => rfl

end Record.Moves

/-- A stage in the compilation of a module with a body. -/
def Frame.delimits : Frame → Bool
  | .runFactory .. | .leaveFactory | .finishCompile _ => true
  | _ => false

namespace Loader

/-- Records have moved on, and no compilation has begun or ended. -/
structure Moves (l l' : Loader) : Prop where
  records : ∀ r, ReflTransGen Record.Moves (l.record r) (l'.record r)
  compiling : l'.compiling = l.compiling

/-- Moreover, no retrieval has been begun. -/
structure Works (l l' : Loader) : Prop extends Moves l l' where
  steady : ∀ locator, l'.Fetches locator → l.Fetches locator

/-- A load waits for a locator's own resource on its behalf. -/
def Expects (l : Loader) (locator : Locator) : Prop :=
  ∃ waiters, l.ledger.inFlight.get? (l.resolver.physicalId locator) = some waiters ∧
    locator ∈ waiters.map Waiter.locator

/-- A record has begun to be compiled. -/
structure Begins (l : Loader) (r : RecordId) (l' : Loader) : Prop where
  registry : l'.registry = l.registry
  below : l.status r < .compiling
  own : l.status r ≠ .unknown → ∃ interface, l'.record r = (l.record r).beginCompile interface
  others : ∀ x, x ≠ r → l'.record x = l.record x

theorem Shifts.moves {l l' : Loader} (shifts : Shifts l l') : Moves l l' :=
  ⟨fun r => (shifts.records r).lift id fun _ _ => .loads, shifts.compiling⟩

theorem Moves.trans {a b c : Loader} (ab : Moves a b) (bc : Moves b c) : Moves a c :=
  ⟨fun r => (ab.records r).trans (bc.records r), bc.compiling.trans ab.compiling⟩

theorem Loads.works {l l' : Loader} (loads : Loads l l') : Works l l' :=
  ⟨loads.toShifts.moves, loads.steady⟩

theorem Works.of_same {l l' : Loader} (registry : l'.registry = l.registry)
    (records : l'.records = l.records) (compiling : l'.compiling = l.compiling) : Works l l' :=
  (Loads.of_same registry records compiling).works

theorem Works.refl (l : Loader) : Works l l := (Loads.refl l).works

theorem Works.of_eq {l l' : Loader} (same : l' = l) : Works l l' := same ▸ .refl l

theorem Works.trans {a b c : Loader} (ab : Works a b) (bc : Works b c) : Works a c :=
  ⟨ab.toMoves.trans bc.toMoves, fun locator => ab.steady locator ∘ bc.steady locator⟩

/-- A record is changed, and its status stays. -/
theorem Works.of_update (l : Loader) {r : RecordId} {f : Record → Record}
    (change : Record.Moves (l.record r) (f (l.record r)))
    (status : (f (l.record r)).status = (l.record r).status) : Works l (l.updateRecord r f) := by
  refine ⟨⟨fun x => ?_, rfl⟩, l.updateRecord_steady fun fetching => status.symm.trans fetching⟩
  obtain same | ⟨rfl, same⟩ := l.updateRecord_cases r f x <;> rw [same]
  exact .single change

theorem remove_works (l : Loader) (locator : Locator) : Works l (l.remove locator) := by
  refine ⟨⟨fun _ => .refl, rfl⟩, ?_⟩
  rintro x ⟨r, held, fetching⟩
  rw [entry_remove] at held
  split at held
  · cases held
  · exact ⟨r, held, fetching⟩

theorem Moves.rises {l l' : Loader} (moves : Moves l l') (r : RecordId) :
    l.status r ≤ l'.status r := by
  have steps := moves.records r
  simp only [status]
  generalize l'.record r = after at *
  induction steps with
  | refl => exact Status.le_refl _
  | tail _ change ih => exact Status.le_trans ih change.rises

/-- No compilation begins or ends. -/
theorem Moves.late {l l' : Loader} (moves : Moves l l') {r : RecordId}
    (late : .compiling ≤ l'.status r) : l'.status r = l.status r := by
  have steps := moves.records r
  simp only [status] at *
  generalize l'.record r = after at *
  induction steps with
  | refl => rfl
  | tail _ change ih =>
    have same := change.late late
    exact same.trans (ih (same ▸ late))

theorem Moves.compiling_iff {l l' : Loader} (moves : Moves l l') (r : RecordId) :
    l'.status r = .compiling ↔ l.status r = .compiling := by
  constructor
  · intro now
    exact (moves.late (now ▸ Status.le_refl _)).symm.trans now
  · intro before
    exact (moves.late (before ▸ moves.rises r)).trans before

theorem Begins.rises {l l' : Loader} {r : RecordId} (begins : Begins l r l') (x : RecordId) :
    l.status x ≤ l'.status x := by
  by_cases same : x = r
  · subst same
    by_cases known : l.status x = .unknown
    · rw [known]
      exact Nat.zero_le _
    · obtain ⟨interface, own⟩ := begins.own known
      rw [status, status, own]
      exact Nat.le_of_lt begins.below
  · rw [status, status, begins.others x same]
    exact Status.le_refl _

theorem Begins.compiling_iff {l l' : Loader} {r : RecordId} (begins : Begins l r l')
    (known : l.status r ≠ .unknown) (x : RecordId) :
    l'.status x = .compiling ↔ x = r ∨ l.status x = .compiling := by
  by_cases same : x = r
  · subst same
    obtain ⟨interface, own⟩ := begins.own known
    rw [status, own]
    exact ⟨fun _ => .inl rfl, fun _ => rfl⟩
  · rw [status, status, begins.others x same]
    exact ⟨.inr, fun now => now.resolve_left same⟩

end Loader

open Loader (Sound Loads Moves Works Begins)

/-- The part of a frame in the compilation of modules. -/
inductive Turn (w : World) : Frame → World → List Frame → Prop where
  | aside {frame : Frame} {w' : World} {frames : List Frame} (outside : frame.delimits = false)
      (moves : Moves w.loader w'.loader)
      (expects : ∀ locator, w'.loader.Fetches locator →
        w.loader.Fetches locator ∨ w'.loader.Expects locator)
      (plain : ∀ f ∈ frames, f.delimits = false) :
      Turn w frame w' frames
  /-- A factory is about to be entered. -/
  | running {w' : World} (r : RecordId) (body : Script) (source : Option String)
      (begins : Begins w.loader r w'.loader)
      (factory : (w.loader.record r).factory = some (.function body source))
      (compiling : w'.loader.compiling = r :: w.loader.compiling) :
      Turn w (.compile r) w' [.runFactory r body, .replaceInterface r, .leaveFactory, .finishCompile r]
  /-- There is no factory to enter. -/
  | exporting {w' : World} (r : RecordId) (begins : Begins w.loader r w'.loader)
      (bodiless : ∀ body source, (w.loader.record r).factory ≠ some (.function body source))
      (compiling : w'.loader.compiling = w.loader.compiling) :
      Turn w (.compile r) w' [.finishCompile r]
  | entered {w' : World} {frames : List Frame} (r : RecordId) (body : Script)
      (loader : w'.loader = w.loader) (plain : ∀ f ∈ frames, f.delimits = false) :
      Turn w (.runFactory r body) w' frames
  | left {w' : World} (loader : w'.loader = w.loader.leaveFactory) : Turn w .leaveFactory w' []
  | finished {w' : World} {frames : List Frame} (r : RecordId)
      (loader : w'.loader = w.loader.setStatus r .compiled)
      (plain : ∀ f ∈ frames, f.delimits = false) : Turn w (.finishCompile r) w' frames

/-- No step takes a record back. -/
theorem Turn.rises {w w' : World} {frame : Frame} {frames : List Frame} (turn : Turn w frame w' frames)
    (r : RecordId) : w.loader.status r ≤ w'.loader.status r := by
  cases turn with
  | aside outside moves => exact moves.rises r
  | running x body source begins => exact begins.rises r
  | exporting x begins => exact begins.rises r
  | entered x body loader => exact loader ▸ Status.le_refl _
  | left loader => exact loader ▸ Status.le_refl _
  | finished x loader =>
    rw [loader, Loader.status_setStatus]
    split
    · exact Status.le_compiled _
    · exact Status.le_refl _

/-- A frame that begins no retrieval. -/
theorem Turn.of_works {w w' : World} {frame : Frame} {frames : List Frame}
    (outside : frame.delimits = false) (works : Works w.loader w'.loader)
    (plain : ∀ f ∈ frames, f.delimits = false) : Turn w frame w' frames :=
  .aside outside works.toMoves (fun locator => .inl ∘ works.steady locator) plain

/-- Every step but one leaves the locators that are being retrieved among those that were; the other one
begins to wait for its locator. -/
theorem Turn.expects {w w' : World} {frame : Frame} {frames : List Frame} (turn : Turn w frame w' frames)
    (sound : Sound w.loader) {locator : Locator} (fetches : w'.loader.Fetches locator) :
    w.loader.Fetches locator ∨ w'.loader.Expects locator := by
  have before (registry : w'.loader.registry = w.loader.registry) : w.loader.Fetches locator := by
    obtain ⟨r, held, fetching⟩ := fetches
    have held : w.loader.entry? locator = some r :=
      (congrArg (OrderedMap.get? · locator) registry).symm.trans held
    have rises := turn.rises r
    have known := sound.known held
    rw [fetching] at rises
    refine ⟨r, held, ?_⟩
    revert rises known
    cases w.loader.status r <;> simp [Status.le_iff, Status.code]
  cases turn with
  | aside outside moves expects => exact expects locator fetches
  | running x body source begins => exact .inl (before begins.registry)
  | exporting x begins => exact .inl (before begins.registry)
  | entered x body loader => exact .inl (loader ▸ fetches)
  | left loader => exact .inl (before (by rw [loader]; rfl))
  | finished x loader => exact .inl (before (by rw [loader]; rfl))

/-! The part of each frame. -/

namespace World

theorem arrive_plain (w : World) (b : BarrierId) (loaded : Option RecordId) :
    ∀ f ∈ (w.arrive b loaded).2, f.delimits = false := by
  intro f member
  simp only [arrive, Option.mem_toList, Option.map_eq_some_iff] at member
  obtain ⟨next, -, rfl⟩ := member
  rfl

theorem getDependency_works (w : World) (c : Context) (id : String) :
    Works w.loader (w.getDependency c id).1.loader ∧
      ∀ f ∈ (w.getDependency c id).2, f.delimits = false := by
  have none : ∀ f ∈ ([] : List Frame), f.delimits = false := List.forall_mem_nil _
  unfold getDependency
  dsimp only
  split
  · exact ⟨.refl _, none⟩
  · split
    · exact ⟨.refl _, none⟩
    · split
      · exact ⟨.refl _, none⟩
      · exact ⟨.refl _, none⟩
      · exact ⟨.of_update _ (.initiated c.record) rfl, by simp [Frame.delimits]⟩

theorem modify_works (w : World) (id : String) (body : Script) :
    Works w.loader (w.modify id body).1.loader ∧ ∀ f ∈ (w.modify id body).2, f.delimits = false := by
  have none : ∀ f ∈ ([] : List Frame), f.delimits = false := List.forall_mem_nil _
  unfold modify
  split
  · exact ⟨(Loader.emit_loads _ _).works, none⟩
  · rename_i target _
    dsimp only
    split
    · split
      · exact ⟨.refl _, by simp [Frame.delimits]⟩
      · exact ⟨.of_same rfl rfl rfl, none⟩
    · exact ⟨.of_same rfl rfl rfl, none⟩

theorem callBack_plain (w : World) (callback : Callback) (interfaces : List (Option Value)) :
    ∀ f ∈ (w.callBack callback interfaces).2, f.delimits = false := by
  simp [callBack, Frame.delimits]

theorem evaluate_loads {w : World} (sound : Sound w.loader) (resource : PhysicalId) :
    Loads w.loader (w.evaluate resource).loader :=
  Loader.foldl_loads_of_sound (fun _ registration sound => Loader.register_loads sound registration none)
    (fun l registration => l.register_orderly registration none) sound _

theorem evaluate_works {w : World} (sound : Sound w.loader) (resource : PhysicalId) :
    Works w.loader (w.evaluate resource).loader := (evaluate_loads sound resource).works

theorem evaluateDerived_works {w : World} (sound : Sound w.loader) (token : FetchToken) :
    Works w.loader (w.evaluateDerived token).loader :=
  (Loader.foldl_loads_of_sound
    (fun _ registration sound => Loader.defineDerived_loads sound registration _)
    (fun l registration => l.defineDerived_orderly registration _) sound _).works

theorem completeTaken_works {w : World} (sound : Sound w.loader) (site : Site) (action : String)
    (taken : Option (World × FetchToken))
    (same : ∀ w' token, taken = some (w', token) → w'.loader = w.loader) :
    Works w.loader (w.completeTaken site action taken).1.loader ∧
      ∀ f ∈ (w.completeTaken site action taken).2, f.delimits = false := by
  unfold completeTaken
  split
  · exact ⟨.refl _, by simp [Frame.delimits]⟩
  · split
    · rename_i w' token
      have still := same w' token rfl
      exact ⟨(Works.of_eq still).trans (evaluate_works (still ▸ sound) _), by simp [Frame.delimits]⟩
    · exact ⟨.refl _, by simp [Frame.delimits]⟩

theorem actOnToken_works {w : World} (sound : Sound w.loader) (site : Site) (index : Nat)
    (action : TokenAction) :
    Works w.loader (w.actOnToken site index action).1.loader ∧
      ∀ f ∈ (w.actOnToken site index action).2, f.delimits = false := by
  have none : ∀ f ∈ ([] : List Frame), f.delimits = false := List.forall_mem_nil _
  unfold actOnToken
  split
  · exact ⟨.refl _, none⟩
  · cases action with
    | look => exact ⟨.refl _, none⟩
    | define draft => exact ⟨(Loader.register_loads sound _ _).works, none⟩
    | defineDerived draft => exact ⟨(Loader.defineDerived_loads sound _ _).works, none⟩
    | complete => exact ⟨.refl _, by simp [Frame.delimits]⟩
    | abandon => exact ⟨(Loader.emit_loads _ _).works, none⟩

theorem act_works {w : World} (sound : Sound w.loader) (site : Site) (action : Action) :
    Works w.loader (w.act site action).1.loader ∧ ∀ f ∈ (w.act site action).2, f.delimits = false := by
  have none : ∀ f ∈ ([] : List Frame), f.delimits = false := List.forall_mem_nil _
  have still {frames : List Frame} (plain : ∀ f ∈ frames, f.delimits = false) :
      Works w.loader w.loader ∧ ∀ f ∈ frames, f.delimits = false := ⟨.refl _, plain⟩
  have extend {l : Loader} {frames : List Frame} {last : Frame} (outside : last.delimits = false)
      (before : Works w.loader l ∧ ∀ f ∈ frames, f.delimits = false) :
      Works w.loader l ∧ ∀ f ∈ frames ++ [last], f.delimits = false := by
    refine ⟨before.1, List.forall_mem_append.mpr ⟨before.2, ?_⟩⟩
    simpa using outside
  cases action with
  | value a =>
    have same := (w.actOnValues_same site a).loader
    simp only [act]
    generalize w.actOnValues site a = made at *
    obtain ⟨w', reply⟩ := made
    cases reply <;> exact ⟨.of_eq same, none⟩
  | query | describe | unknown | giveBack => exact still none
  | get id into key =>
    simp only [act]
    split
    · exact still none
    · exact extend rfl (w.getDependency_works _ id)
  | giveBackDependency id =>
    simp only [act]
    split
    · exact still none
    · exact w.getDependency_works _ id
  | loadAsync ids tag body =>
    simp only [act]
    split
    · exact still none
    · exact still (by simp [Frame.delimits])
  | useModules | load =>
    refine still fun f member => ?_
    simp only [act, List.singleton_append, List.mem_cons, List.not_mem_nil, or_false] at member
    obtain rfl | rfl := member <;> rfl
  | compile ref into =>
    simp only [act]
    split
    · exact still none
    · exact still (by simp [Frame.delimits])
  | define draft => exact ⟨(Loader.register_loads sound _ _).works, none⟩
  | defineDerived draft derived => exact ⟨(Loader.defineDerived_loads sound _ _).works, none⟩
  | modify id body => exact extend rfl (w.modify_works id body)
  | preload => exact ⟨.of_same rfl rfl rfl, none⟩
  | remove => exact ⟨Loader.remove_works _ _, none⟩
  | clearDiagnostics => exact ⟨.of_same rfl rfl rfl, none⟩
  | keep ref into =>
    simp only [act]
    split <;> exact still none
  | setExports ref value =>
    simp only [act]
    split
    · exact still none
    · exact ⟨.of_update _ (.exported _) rfl, none⟩
  | addFile => exact still none
  | complete resource =>
    exact completeTaken_works sound site _ _ fun _ _ taken => (takeQueued?_spec taken).loader
  | completeNext => exact completeTaken_works sound site _ _ fun _ _ taken => (takeNext?_spec taken).loader
  | completeAll =>
    simp only [act]
    split
    · exact still (by simp [Frame.delimits])
    · exact still none
  | token index a => exact actOnToken_works sound site index a
  | report => exact ⟨(Loader.emit_loads _ _).works, none⟩

theorem runScript_works {w : World} (sound : Sound w.loader) (site : Site) (actions : Script) :
    Works w.loader (w.runScript site actions).1.loader ∧
      ∀ f ∈ (w.runScript site actions).2, f.delimits = false := by
  cases actions with
  | nil => exact ⟨.refl _, List.forall_mem_nil _⟩
  | cons action rest =>
    obtain ⟨moves, plain⟩ := act_works sound site action
    simp only [runScript]
    split
    · exact ⟨moves, plain⟩
    · exact ⟨moves, List.forall_mem_append.mpr ⟨plain, by simp [Frame.delimits]⟩⟩

theorem retrieve_works {w : World} (sound : Sound w.loader) (token : FetchToken) :
    Works w.loader (w.retrieve token).1.loader ∧ ∀ f ∈ (w.retrieve token).2, f.delimits = false := by
  have none : ∀ f ∈ ([] : List Frame), f.delimits = false := List.forall_mem_nil _
  have one : ∀ f ∈ [Frame.retrieved token], f.delimits = false := by simp [Frame.delimits]
  unfold retrieve
  dsimp only
  split
  · exact ⟨evaluate_works sound _, one⟩
  · exact ⟨.refl _, one⟩
  · exact ⟨.refl _, none⟩
  · exact ⟨evaluateDerived_works sound _, one⟩
  · exact ⟨.refl _, none⟩
  · exact ⟨(Loader.emit_loads _ _).works, none⟩

/-- An entry that begins to be retrieved is waited for. -/
theorem enter_moves {w : World} (sound : Sound w.loader) (locator : Locator) (b : BarrierId) :
    Moves w.loader (w.enter locator b).1.loader ∧
      (∀ x, (w.enter locator b).1.loader.Fetches x →
        w.loader.Fetches x ∨ (w.enter locator b).1.loader.Expects x) ∧
      ∀ f ∈ (w.enter locator b).2, f.delimits = false := by
  have made := (w.loader.ensure_shifts locator).moves
  have anew := Loader.ensure_fetches sound locator
  have orderly := (w.loader.ensure_orderly locator (s := .fetching) (by decide) sound).1
  have here := w.loader.entry_ensure locator locator .fetching
  rw [if_pos rfl] at here
  have one : ∀ f ∈ [Frame.settled locator b], f.delimits = false := by simp [Frame.delimits]
  unfold enter
  generalize w.loader.ensure locator .fetching = ensured at *
  obtain ⟨l, r⟩ := ensured
  dsimp only at *
  by_cases ended : Status.fetched ≤ l.status r
  · rw [if_pos ended]
    refine ⟨made, fun x fetches => .inl ((anew x fetches).resolve_right ?_), one⟩
    rintro rfl
    obtain ⟨y, held, fetching⟩ := fetches
    cases held.symm.trans here
    exact Status.ne_fetching (by decide) ended fetching
  · rw [if_neg ended]
    have loads := l.awaitResource_loads ⟨locator, b⟩
    have waited := made.trans loads.toShifts.moves
    have cases := l.awaitResource_cases ⟨locator, b⟩
    have orderly := l.awaitResource_orderly ⟨locator, b⟩ orderly
    have base := l.awaitResource_base ⟨locator, b⟩
    dsimp only at cases
    generalize l.awaitResource ⟨locator, b⟩ = awaited at *
    obtain ⟨l', start⟩ := awaited
    dsimp only at *
    obtain ⟨known, fetched, same⟩ | ⟨waiters, -, flying, rfl, ledger⟩ | ⟨-, -, rfl, ledger⟩ := cases
    · cases same
      refine ⟨waited, fun x fetches => .inl ((anew x (loads.steady x fetches)).resolve_right ?_), one⟩
      rintro rfl
      exact Loader.share_ends (Loader.retrieved?_fetched fetched) x fetches
    · refine ⟨waited, fun x fetches => (anew x (loads.steady x fetches)).imp id ?_, by simp⟩
      rintro rfl
      refine ⟨waiters ++ [⟨x, b⟩], ?_, by simp⟩
      rw [ledger, base.2.1, OrderedMap.get?_insert, if_pos rfl]
    · obtain ⟨works, plain⟩ := retrieve_works (w := { w with loader := l' }) orderly.1
        ⟨l.resolver.physicalId locator, locator⟩
      obtain ⟨tame, kept, -⟩ := retrieve_spec { w with loader := l' }
        ⟨l.resolver.physicalId locator, locator⟩
      refine ⟨waited.trans works.toMoves, fun x fetches => ?_, plain⟩
      refine (anew x (loads.steady x (works.steady x fetches))).imp id ?_
      rintro rfl
      refine ⟨[⟨x, b⟩], ?_, by simp⟩
      rw [kept, ledger, tame.resolver, base.2.1, OrderedMap.get?_insert, if_pos rfl]

theorem settle_loads (w : World) (locator : Locator) (b : BarrierId) :
    Loads w.loader (w.settle locator b).1.loader := by
  have read := w.loader.settledEntry_loads locator
  have saved := w.loader.settledEntry_saved locator
  unfold settle
  generalize w.loader.settledEntry locator = entry at *
  obtain ⟨l, entry⟩ := entry
  have moved (loaded : Option RecordId) (saved : ∀ r, loaded = some r → .saved ≤ l.status r) :
      Loads w.loader (arrive { w with loader := l } b loaded).1.loader :=
    read.trans (Loader.arrive_loads saved b)
  cases entry with
  | missing => exact moved none fun r here => by cases here
  | ready r =>
    refine moved (some r) fun x here => Status.le_trans (saved x ?_) (read.toShifts.rises x)
    exact .inl (congrArg _ (Option.some.inj here))
  | waits r dependencies => exact read

theorem settle_works (w : World) (locator : Locator) (b : BarrierId) :
    Works w.loader (w.settle locator b).1.loader ∧
      ∀ f ∈ (w.settle locator b).2, f.delimits = false := by
  refine ⟨(w.settle_loads locator b).works, ?_⟩
  unfold settle
  dsimp only
  split
  · exact arrive_plain _ b none
  · exact arrive_plain _ b (some _)
  · simp [Frame.delimits]

/-- What compiling a module begins with. -/
theorem compile_cases (w : World) (r : RecordId) :
    (∃ answer, w.compile r = ({ w with answer }, [])) ∨
    (∃ body source, (w.loader.record r).factory = some (.function body source) ∧
      Begins w.loader r (w.compile r).1.loader ∧
      (w.compile r).1.loader.compiling = r :: w.loader.compiling ∧
      (w.compile r).1.kept = w.kept ∧ (w.compile r).2 =
        [.runFactory r body, .replaceInterface r, .leaveFactory, .finishCompile r]) ∨
    (∀ body source, (w.loader.record r).factory ≠ some (.function body source)) ∧
      Begins w.loader r (w.compile r).1.loader ∧
      (w.compile r).1.loader.compiling = w.loader.compiling ∧
      (w.compile r).1.kept = w.kept ∧ (w.compile r).2 = [.finishCompile r] := by
  unfold compile
  split
  · exact .inl ⟨_, rfl⟩
  · exact .inl ⟨_, rfl⟩
  · rename_i below below'
    split
    · have below : w.loader.status r < .compiling := by
        revert below below'
        cases w.loader.status r <;> simp_all [Status.lt_iff, Status.code]
      have begun (interface : Value) : Begins w.loader r (w.loader.beginCompile r interface) := by
        refine ⟨rfl, below, fun known => ⟨interface, ?_⟩, fun x other => ?_⟩
        · exact (Loader.record_updateRecord_inside (Loader.index_lt_of_known known) _ r).trans (if_pos rfl)
        · exact (Loader.record_updateRecord ..).trans (if_neg fun here => other here.1.symm)
      have factory (interface : Value) :
          ((w.loader.beginCompile r interface).record r).factory = (w.loader.record r).factory := by
        rw [Loader.beginCompile, Loader.record_updateRecord]
        split <;> rfl
      dsimp only
      rw [factory]
      split
      · rename_i body source function
        exact .inr (.inl ⟨body, source, function, ⟨rfl, below, (begun _).own, (begun _).others⟩, rfl, rfl,
          rfl⟩)
      · rename_i value here
        refine .inr (.inr ⟨fun body source function => ?_, ⟨rfl, below, fun known => ⟨value, ?_⟩, ?_⟩, rfl,
          rfl, rfl⟩)
        · cases here.symm.trans function
        · obtain ⟨interface, own⟩ := (begun (w.memory.newObject ∅).2).own known
          have inside : r.index < (w.loader.beginCompile r (w.memory.newObject ∅).2).records.size := by
            simpa [Loader.beginCompile, Loader.updateRecord] using Loader.index_lt_of_known known
          rw [Loader.setExports, Loader.record_updateRecord_inside inside, if_pos rfl, own]
          rfl
        · intro x other
          rw [Loader.setExports, Loader.record_updateRecord, if_neg fun same => other same.1.symm]
          exact (begun _).others x other
      · rename_i here
        refine .inr (.inr ⟨fun body source function => ?_, begun _, rfl, rfl, rfl⟩)
        cases here.symm.trans function
    · exact .inl ⟨_, rfl⟩

theorem compile_turn (w : World) (r : RecordId) :
    Turn w (.compile r) (w.compile r).1 (w.compile r).2 := by
  obtain ⟨answer, same⟩ | ⟨body, source, factory, begins, compiling, -, frames⟩ |
    ⟨bodiless, begins, compiling, -, frames⟩ := w.compile_cases r
  · rw [same]
    exact .of_works rfl (.refl _) (List.forall_mem_nil _)
  · rw [frames]
    exact .running r body source begins factory compiling
  · rw [frames]
    exact .exporting r begins bodiless compiling

end World

/-- Whatever the next frame is, its work has one of the parts in the compilation of modules. -/
theorem Frame.turn {w : World} (sound : Sound w.loader) {frame : Frame}
    (saved : ∀ b r, frame = .resume (.arrive b r) → .saved ≤ w.loader.status r) :
    Turn w frame (frame.exec w).1 (frame.exec w).2 := by
  have none : ∀ f ∈ ([] : List Frame), f.delimits = false := List.forall_mem_nil _
  have still {f : Frame} (outside : frame.delimits = false) (plain : f.delimits = false) :
      Turn w frame w [f] := .of_works outside (.refl _) (by simpa using plain)
  cases frame with
  | script site actions =>
    obtain ⟨works, plain⟩ := World.runScript_works sound site actions
    exact .of_works rfl works plain
  | conclude site conclusion => exact .of_works rfl (.of_eq (w.conclude_same site conclusion).loader) none
  | load locators onDone =>
    simp only [exec, World.load]
    split
    · exact still rfl rfl
    · exact .of_works rfl (.of_same rfl rfl rfl) (by simp [delimits])
  | entries locators b =>
    cases locators with
    | nil => exact .of_works rfl (.refl _) none
    | cons locator rest =>
      obtain ⟨moves, expects, plain⟩ := World.enter_moves sound locator b
      exact .aside rfl moves expects (List.forall_mem_append.mpr ⟨plain, by simp [delimits]⟩)
  | settled locator b => exact .of_works rfl (w.settle_works locator b).1 (w.settle_works locator b).2
  | resume continuation =>
    cases continuation with
    | arrive b r =>
      have loaded : ∀ x, some r = some x → .saved ≤ w.loader.status x :=
        fun x here => saved b x (by rw [Option.some.inj here])
      exact .of_works rfl (Loader.arrive_loads loaded b).works (w.arrive_plain b (some r))
    | request | preload | gather => exact still rfl rfl
    | call callback =>
      exact .of_works rfl (.of_eq (World.bindArguments_same ..).loader) (World.callBack_plain _ callback _)
  | request | collect => exact still rfl rfl
  | preload next =>
    simp only [exec, World.preload]
    split
    · exact still rfl rfl
    · exact .of_works rfl (.of_same rfl rfl rfl) (by simp [delimits])
  | gather locators interfaces receiver =>
    cases locators with
    | nil => exact still rfl rfl
    | cons locator rest =>
      simp only [exec, World.gather]
      split
      · exact .of_works rfl (.refl _) (by simp [delimits])
      · exact still rfl rfl
  | deliver receiver interfaces =>
    cases receiver with
    | host callback =>
      exact .of_works rfl (.of_eq (World.bindArguments_same ..).loader) (World.callBack_plain _ callback _)
    | discard next => exact still rfl rfl
  | retrieved token =>
    exact .of_works rfl (Loader.finishFetch_loads sound token).works
      (by simp [exec, World.finishFetch, delimits])
  | compile r => exact w.compile_turn r
  | runFactory r body => exact .entered r body rfl (by simp [exec, World.enterBody, delimits])
  | runPatch r patch => exact .of_works rfl (.refl _) (by simp [exec, World.enterBody, delimits])
  | replaceInterface r =>
    simp only [exec]
    split
    · exact .of_works rfl (.of_update _ (.exported _) rfl) none
    · exact .of_works rfl (.refl _) none
  | leaveFactory => exact .left rfl
  | finishCompile r =>
    refine .finished r rfl fun f member => ?_
    simp only [exec, World.finishCompile, List.mem_append, List.mem_map, List.mem_singleton] at member
    obtain ⟨key, -, rfl⟩ | rfl := member <;> rfl
  | applyPatches key r =>
    refine .of_works rfl (.of_same rfl rfl rfl) fun f member => ?_
    simp only [exec, World.applyPatches, List.mem_flatMap, List.mem_cons, List.not_mem_nil,
      or_false] at member
    obtain ⟨patch, -, rfl | rfl⟩ := member <;> rfl
  | answerExports r => exact .of_works rfl (.refl _) none
  | completeRest site done =>
    simp only [exec]
    split
    · rename_i w' token taken
      have same := (World.takeNext?_spec taken).loader
      exact .of_works rfl ((Works.of_eq same).trans (World.evaluate_works (same ▸ sound) _))
        (by simp [delimits])
    · exact .of_works rfl (.refl _) none

end ModuleLoader
