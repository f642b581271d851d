import ModuleLoader.Proofs.Effects.Fetching
import ModuleLoader.Proofs.Occurrence
import Mathlib.Data.List.Perm.Subperm

/-! What one step does to loads in progress. Every kind of frame is looked into here once; later
arguments go by the kinds of effect. -/
namespace ModuleLoader

open Loader (Quiet Sound Orderly Landed)

/-- The ground on which loads stand is kept. -/
structure World.Tame (w w' : World) : Prop where
  config : w'.loader.config = w.loader.config
  resolver : w'.loader.resolver = w.loader.resolver
  policy : w'.fetcher.policy = w.fetcher.policy
  issued : w.issued ≤ w'.issued
  /-- Only a fetcher that hands retrievals to the host comes to hold any in this way. -/
  unhanded : w.fetcher.policy ≠ .manual → w.fetcher.tokens = #[] → w'.fetcher.tokens = #[]

/-- No load is affected, and the fetcher can complete what it could before. -/
structure World.Calm (w w' : World) : Prop extends World.Tame w w' where
  ledger : w'.loader.ledger = w.loader.ledger
  barriers : w'.loader.barriers = w.loader.barriers
  orderly : Orderly w.loader w'.loader
  inHand : w'.inHand = w.inHand

theorem World.Tame.trans {a b c : World} (ab : Tame a b) (bc : Tame b c) : Tame a c :=
  ⟨bc.config.trans ab.config, bc.resolver.trans ab.resolver, bc.policy.trans ab.policy,
    Nat.le_trans ab.issued bc.issued,
    fun other empty => bc.unhanded (ab.policy ▸ other) (ab.unhanded other empty)⟩

theorem World.Calm.trans {a b c : World} (ab : Calm a b) (bc : Calm b c) : Calm a c :=
  ⟨ab.toTame.trans bc.toTame, bc.ledger.trans ab.ledger, bc.barriers.trans ab.barriers,
    ab.orderly.trans bc.orderly, bc.inHand.trans ab.inHand⟩

/-- One entry less to wait for; the last one starts what goes on then. -/
def World.Counted (w : World) (b : BarrierId) (w' : World) (frames : List Frame) : Prop :=
  (w.loader.barrier b).remaining - 1 = 0 ∧
      w'.loader.barriers = w.loader.barriers.modify b.index (fun _ => ⟨0, none⟩) ∧
      frames = ((w.loader.barrier b).onDone.map Frame.resume).toList ∨
    (w.loader.barrier b).remaining - 1 ≠ 0 ∧
      w'.loader.barriers = w.loader.barriers.modify b.index
        (fun barrier => { barrier with remaining := (w.loader.barrier b).remaining - 1 }) ∧
      frames = []

/-- The effect of a frame on loads in progress, beside what the host can tell of it. -/
inductive Effect (w : World) (frame : Frame) : Occurrence → World → List Frame → Prop where
  /-- Retrievals may pass from hand to hand, and the host may let go of one. -/
  | calm {w' : World} {frames : List Frame} (tame : w.Tame w')
      (ledger : w'.loader.ledger = w.loader.ledger)
      (barriers : w'.loader.barriers = w.loader.barriers) (orderly : Orderly w.loader w'.loader)
      (goals : frames.flatMap Frame.goals = frame.goals)
      (tokens : (frames.filterMap Frame.token? ++ w'.inHand).Subperm w.inHand)
      (other : frame.token? = none)
      (whole : w.fetcher.tokens = #[] → (frames.filterMap Frame.token? ++ w'.inHand).Perm w.inHand) :
      Effect w frame .none w' frames
  | removed {w' : World} {frames : List Frame} (locator : Locator) (tame : w.Tame w')
      (loader : w'.loader = w.loader.remove locator) (inHand : w'.inHand = w.inHand)
      (goals : frames.flatMap Frame.goals = frame.goals)
      (tokens : frames.filterMap Frame.token? = []) (other : frame.token? = none) :
      Effect w frame (.removed locator) w' frames
  | passed {w' : World} {frames : List Frame} (wanted : List Locator) (calm : w.Calm w')
      (issued : w.issued < w'.issued) (before : frame.goals = [])
      (after : frames.flatMap Frame.goals = [.callback w.issued])
      (tokens : frames.filterMap Frame.token? = []) (other : frame.token? = none) :
      Effect w frame (.passed w.issued wanted) w' frames
  | called {w' : World} {frames : List Frame} (number : Nat) (calm : w.Calm w')
      (before : frame.goals = [.callback number]) (after : frames.flatMap Frame.goals = [])
      (tokens : frames.filterMap Frame.token? = []) (other : frame.token? = none) :
      Effect w frame (.called number) w' frames
  /-- A load begins, with a point where its entries come together. -/
  | opened {w' : World} {wanted locators : List Locator} {onDone : Continuation}
      (same : frame = .load wanted onDone) (nonempty : locators ≠ []) (tame : w.Tame w')
      (ledger : w'.loader.ledger = w.loader.ledger)
      (barriers : w'.loader.barriers = w.loader.barriers.push ⟨locators.length, some onDone⟩)
      (orderly : Orderly w.loader w'.loader) (inHand : w'.inHand = w.inHand) :
      Effect w frame .none w' [.entries locators ⟨w.loader.barriers.size⟩]
  /-- An entry of a load waits for a retrieval that is under way. -/
  | joined {w' : World} {frames : List Frame} (waiter : Waiter) (waiters : List Waiter)
      (tame : w.Tame w')
      (flying : w.loader.ledger.inFlight.get? (w.loader.resolver.physicalId waiter.locator) =
        some waiters)
      (ledger : w'.loader.ledger =
        ⟨w.loader.ledger.inFlight.insert (w.loader.resolver.physicalId waiter.locator)
          (waiters ++ [waiter]),
         w.loader.ledger.completed.erase (w.loader.resolver.physicalId waiter.locator)⟩)
      (barriers : w'.loader.barriers = w.loader.barriers) (orderly : Orderly w.loader w'.loader)
      (inHand : w'.inHand = w.inHand)
      (goals : frame.goals = .barrier waiter.barrier :: frames.flatMap Frame.goals)
      (tokens : frames.filterMap Frame.token? = []) (other : frame.token? = none) :
      Effect w frame .none w' frames
  /-- An entry of a load asks the fetcher for a resource that is not under way and not at hand. -/
  | started {w' : World} {frames : List Frame} (waiter : Waiter) (token : FetchToken)
      (tame : w.Tame w')
      (same : token = ⟨w.loader.resolver.physicalId waiter.locator, waiter.locator⟩)
      (grounded : w.loader.ledger.inFlight.get? token.resource = none)
      (stale : ∀ first, w.loader.ledger.completed.get? token.resource = some first →
        ¬ Landed w.loader first)
      (ledger : w'.loader.ledger = ⟨w.loader.ledger.inFlight.insert token.resource [waiter],
        w.loader.ledger.completed.erase token.resource⟩)
      (barriers : w'.loader.barriers = w.loader.barriers) (orderly : Orderly w.loader w'.loader)
      (goals : frame.goals = .barrier waiter.barrier :: frames.flatMap Frame.goals)
      (tokens : (frames.filterMap Frame.token? ++ w'.inHand).Subperm (token :: w.inHand))
      (other : frame.token? = none)
      (whole : w.fetcher.policy = .queued →
        (frames.filterMap Frame.token? ++ w'.inHand).Perm (token :: w.inHand)) :
      Effect w frame (.started token) w' frames
  /-- An entry of a load is done with; the last one starts what comes next. -/
  | arrived {w' : World} {frames : List Frame} (b : BarrierId) (tame : w.Tame w')
      (ledger : w'.loader.ledger = w.loader.ledger) (counted : w.Counted b w' frames)
      (orderly : Orderly w.loader w'.loader) (inHand : w'.inHand = w.inHand)
      (goals : frame.goals = [.barrier b]) (other : frame.token? = none) :
      Effect w frame .none w' frames
  /-- A retrieval is over, and those who waited for it go on. -/
  | finished {w' : World} (token : FetchToken) (tame : w.Tame w') (same : frame = .retrieved token)
      (ledger : w'.loader.ledger = ⟨w.loader.ledger.inFlight.erase token.resource,
        w.loader.ledger.completed.insert token.resource token.locator⟩)
      (barriers : w'.loader.barriers = w.loader.barriers) (orderly : Orderly w.loader w'.loader)
      (landed : Landed w'.loader token.locator) (inHand : w'.inHand = w.inHand) :
      Effect w frame (.finished token) w'
        (((w.loader.ledger.inFlight.get? token.resource).getD []).map
          fun waiter => .settled waiter.locator waiter.barrier)

/-- A frame that only moves on. -/
theorem Effect.of_calm {w w' : World} {frame : Frame} {frames : List Frame} (calm : w.Calm w')
    (goals : frames.flatMap Frame.goals = frame.goals)
    (tokens : frames.filterMap Frame.token? = []) (other : frame.token? = none) :
    Effect w frame .none w' frames := by
  have same : frames.filterMap Frame.token? ++ w'.inHand = w.inHand := by
    rw [tokens, List.nil_append, calm.inHand]
  refine .calm calm.toTame calm.ledger calm.barriers calm.orderly goals ?_ other ?_
  · rw [same]
  · exact fun _ => .of_eq same

namespace World

/-- A change of the loader that does not concern loads. -/
theorem calm_of_quiet {w w' : World} (quiet : Quiet w.loader w'.loader)
    (orderly : Orderly w.loader w'.loader) (fetcher : w'.fetcher = w.fetcher)
    (issued : w'.issued = w.issued) : w.Calm w' :=
  ⟨⟨quiet.config, quiet.resolver, by rw [fetcher], Nat.le_of_eq issued.symm,
      fun _ empty => fetcher ▸ empty⟩, quiet.ledger,
    quiet.barriers, orderly, by rw [inHand, fetcher, inHand]⟩

/-- A change outside of the loader and the fetcher. -/
theorem calm_of_same {w w' : World} (loader : w'.loader = w.loader) (fetcher : w'.fetcher = w.fetcher)
    (issued : w'.issued = w.issued) : w.Calm w' := by
  refine calm_of_quiet ?_ ?_ fetcher issued <;> rw [loader]
  · exact .refl _
  · exact .refl _

theorem Calm.refl (w : World) : w.Calm w := calm_of_same rfl rfl rfl

/-- Nothing has changed but values and what is written down. -/
structure Same (w w' : World) : Prop where
  loader : w'.loader = w.loader
  fetcher : w'.fetcher = w.fetcher
  issued : w'.issued = w.issued
  kept : w'.kept = w.kept

theorem store_same (w : World) (into : Option String) (value : Value) :
    w.Same (w.store into value) := by
  unfold store
  split <;> exact ⟨rfl, rfl, rfl, rfl⟩

/-- Values are the host's own affair. -/
theorem actOnValues_same (w : World) (site : Site) (action : ValueAction) :
    w.Same (w.actOnValues site action).1 := by
  have stored {w' : World} (same : w.Same w') (into : Option String) (value : Value) :
      w.Same (w'.store into value) := by
    obtain ⟨loader, fetcher, issued, kept⟩ := w'.store_same into value
    exact ⟨loader.trans same.loader, fetcher.trans same.fetcher, issued.trans same.issued,
      kept.trans same.kept⟩
  cases action with
  | assign | member | bump | nest =>
    refine stored ?_ _ _
    exact ⟨rfl, rfl, rfl, rfl⟩
  | put | dropKey | hasKey | keys =>
    simp only [actOnValues, onObject]
    split <;> exact ⟨rfl, rfl, rfl, rfl⟩
  | compareObjects =>
    simp only [actOnValues, onObject]
    split
    · split <;> exact ⟨rfl, rfl, rfl, rfl⟩
    · exact ⟨rfl, rfl, rfl, rfl⟩
  | _ => exact ⟨rfl, rfl, rfl, rfl⟩

theorem conclude_same (w : World) (site : Site) (conclusion : Conclusion) :
    w.Same (w.conclude site conclusion) := by
  cases conclusion with
  | got into => exact ⟨(w.store_same into _).loader, (w.store_same into _).fetcher,
      (w.store_same into _).issued, (w.store_same into _).kept⟩
  | compiled into => exact ⟨(w.store_same into _).loader, (w.store_same into _).fetcher,
      (w.store_same into _).issued, (w.store_same into _).kept⟩
  | reply => exact ⟨rfl, rfl, rfl, rfl⟩

theorem bindArguments_same (w : World) (interfaces : List (Option Value)) :
    w.Same (w.bindArguments interfaces) := by
  unfold bindArguments
  generalize interfaces.zipIdx = numbered
  induction numbered generalizing w with
  | nil => exact ⟨rfl, rfl, rfl, rfl⟩
  | cons argument rest ih =>
    obtain ⟨loader, fetcher, issued, kept⟩ := ih (w.store _ (argument.1.getD .null))
    have stored := w.store_same (some ("arg" ++ toString argument.2)) (argument.1.getD .null)
    exact ⟨loader.trans stored.loader, fetcher.trans stored.fetcher, issued.trans stored.issued,
      kept.trans stored.kept⟩

theorem callBack_calm (w : World) (callback : Callback) (interfaces : List (Option Value)) :
    w.Calm (w.callBack callback interfaces).1 := by
  obtain ⟨loader, fetcher, issued, -⟩ := bindArguments_same
    (w.write callback.place "callback" (some (.many (interfaces.map w.displayOption)))) interfaces
  exact calm_of_same loader fetcher issued

/-! Registering. -/

theorem evaluate_calm (w : World) (resource : PhysicalId) :
    w.Calm (w.evaluate resource) :=
  calm_of_quiet ((w.evaluate_edits resource).quiet id)
    (Loader.foldl_orderly (fun l registration => l.register_orderly registration none) _ _) rfl rfl

theorem evaluateDerived_calm (w : World) (token : FetchToken) :
    w.Calm (w.evaluateDerived token) :=
  calm_of_quiet ((w.evaluateDerived_edits token).quiet id)
    (Loader.foldl_orderly (fun l registration => l.defineDerived_orderly registration _) _ _) rfl rfl

theorem abandon_calm (w : World) (token : FetchToken) : w.Calm (w.abandon token) :=
  calm_of_quiet (w.loader.emit_quiet _) (w.loader.emit_orderly _) rfl rfl

/-- A file of the table is read. -/
def readFile (w : World) (file : PhysicalId × Draft) : World :=
  { (w.evalDraft .outer file.2).1 with fetcher.files :=
      (w.evalDraft .outer file.2).1.fetcher.files ++ [(file.1, (w.evalDraft .outer file.2).2)] }

/-- Files are read before a session does anything else. -/
theorem start_eq (setup : Setup) :
    World.start setup = setup.files.foldl readFile
      { loader := .new setup.config setup.resolver setup.sink, memory := .empty,
        fetcher := { policy := setup.policy } } := rfl

theorem start_spec (setup : Setup) :
    (World.start setup).loader = .new setup.config setup.resolver setup.sink ∧
      (World.start setup).inHand = [] ∧ (World.start setup).issued = 0 ∧
      (World.start setup).fetcher.policy = setup.policy ∧
      (World.start setup).fetcher.requests = #[] := by
  have read (files : List (PhysicalId × Draft)) (w : World) :
      let w' := files.foldl readFile w
      w'.loader = w.loader ∧ w'.inHand = w.inHand ∧ w'.issued = w.issued ∧
        w'.fetcher.policy = w.fetcher.policy ∧ w'.fetcher.requests = w.fetcher.requests := by
    induction files generalizing w with
    | nil => exact ⟨rfl, rfl, rfl, rfl, rfl⟩
    | cons file files ih => exact ih _
  rw [start_eq]
  exact read setup.files _

/-- Reading the files leaves everything but values and the fetcher's table as new. -/
theorem start_bare (setup : Setup) :
    World.start setup =
      { loader := .new setup.config setup.resolver setup.sink, memory := (World.start setup).memory,
        fetcher := { policy := setup.policy, files := (World.start setup).fetcher.files } } := by
  have read (files : List (PhysicalId × Draft)) (w : World) :
      let w' := files.foldl readFile w
      w' = { w with memory := w'.memory, fetcher := { w.fetcher with files := w'.fetcher.files } } := by
    induction files generalizing w with
    | nil => rfl
    | cons file files ih => exact (ih (w.readFile file)).trans rfl
  rw [start_eq]
  exact read setup.files _

end World

theorem Loader.new_sound (config : Config) (resolver : Resolver) (sink : Sink) :
    Sound (.new config resolver sink) :=
  ⟨fun held => (by cases held), fun first => (by cases first)⟩

end ModuleLoader
