import ModuleLoader.Proofs.Effects.Step

/-! The effect of each frame. The main statement is `Frame.effect`: whatever the next frame is, its work
is of one of the kinds of effect, and the host can tell just what that kind says. -/
namespace ModuleLoader

open Loader (Quiet Sound Orderly Landed)

/-- What is put under the frames of a list of actions waits for nothing. -/
theorem Effect.extend {w w' : World} {site : Site} {actions : Script} {o : Occurrence}
    {frames : List Frame} {extra : Frame} (effect : Effect w (.script site actions) o w' frames)
    (goals : extra.goals = []) (token : extra.token? = none) :
    Effect w (.script site actions) o w' (frames ++ [extra]) := by
  cases effect with
  | calm tame ledger barriers orderly same tokens other whole =>
    exact .calm tame ledger barriers orderly (by simpa [goals] using same)
      (by simpa [List.filterMap_append, token] using tokens) other
      (by simpa [List.filterMap_append, token] using whole)
  | removed locator tame loader inHand same tokens other =>
    exact .removed locator tame loader inHand (by simpa [goals] using same)
      (by simpa [List.filterMap_append, token] using tokens) other
  | passed wanted calm issued before after tokens other =>
    exact .passed wanted calm issued before (by simpa [goals] using after)
      (by simpa [List.filterMap_append, token] using tokens) other
  | called number calm before => cases before
  | opened same => cases same
  | joined waiter waiters tame flying ledger barriers orderly inHand same => cases same
  | started waiter token tame same grounded stale ledger barriers orderly goals => cases goals
  | arrived b tame ledger counted orderly inHand goals => cases goals
  | finished token tame same => cases same

namespace World

variable {w : World}

/-- A script's frame that stays away from loads and hands nothing over. -/
theorem act_calm {w' : World} {site : Site} {actions : Script} {frames : List Frame}
    (calm : w.Calm w') (goals : frames.flatMap Frame.goals = [])
    (tokens : frames.filterMap Frame.token? = []) :
    Effect w (.script site actions) .none w' frames := .of_calm calm goals tokens rfl

theorem getDependency_effect (w : World) (site : Site) (actions : Script) (c : Context)
    (id : String) :
    Effect w (.script site actions) .none (w.getDependency c id).1 (w.getDependency c id).2 := by
  have same (answer : Option Value) : w.Calm { w with answer } := calm_of_same rfl rfl rfl
  unfold getDependency
  dsimp only
  split
  · exact act_calm (same _) rfl rfl
  · split
    · exact act_calm (same _) rfl rfl
    · split
      · exact act_calm (same _) rfl rfl
      · exact act_calm (same _) rfl rfl
      · exact act_calm (calm_of_quiet (Loader.updateRecord_quiet _ _ _)
          (Loader.setInitiator_orderly _ _ _) rfl rfl) rfl rfl

theorem modify_effect (w : World) (site : Site) (actions : Script) (id : String) (body : Script) :
    Effect w (.script site actions) .none (w.modify id body).1 (w.modify id body).2 := by
  have patched (target : Locator) : w.Calm (w.newPatch target body).1 :=
    ⟨⟨rfl, rfl, rfl, Nat.le_succ _, fun _ empty => empty⟩, rfl, rfl, .refl _, rfl⟩
  have later (target : Locator) : w.Calm { (w.newPatch target body).1 with
      loader := w.loader.queuePatch (w.newPatch target body).2 } :=
    (patched target).trans (calm_of_quiet ⟨rfl, rfl, rfl, rfl⟩ (.of_same rfl rfl rfl) rfl rfl)
  unfold modify
  split
  · exact act_calm (calm_of_quiet (w.loader.emit_quiet _) (w.loader.emit_orderly _) rfl rfl) rfl rfl
  · rename_i target _
    dsimp only
    split
    · split
      · exact act_calm (patched target) rfl rfl
      · exact act_calm (later target) rfl rfl
    · exact act_calm (later target) rfl rfl

/-- A retrieval has been taken from the queue, and nothing else has happened. -/
structure Takes (w w' : World) (token : FetchToken) : Prop where
  loader : w'.loader = w.loader
  issued : w'.issued = w.issued
  policy : w'.fetcher.policy = w.fetcher.policy
  tokens : w'.fetcher.tokens = w.fetcher.tokens
  hands : (token :: w'.inHand).Perm w.inHand

theorem takeNext?_spec {w' : World} {token : FetchToken} (taken : w.takeNext? = some (w', token)) :
    w.Takes w' token := by
  unfold takeNext? at taken
  split at taken
  · rename_i first rest queue
    cases taken
    refine ⟨rfl, rfl, rfl, rfl, ?_⟩
    simp [inHand, queue]
  · cases taken

theorem takeQueued?_spec {resource : PhysicalId} {w' : World} {token : FetchToken}
    (taken : w.takeQueued? resource = some (w', token)) : w.Takes w' token := by
  unfold takeQueued? at taken
  split at taken
  · rename_i found queued
    cases taken
    refine ⟨rfl, rfl, rfl, rfl, ?_⟩
    have member := List.mem_of_find?_eq_some queued
    exact (List.perm_cons_erase member).symm.append_right _
  · cases taken

/-- A retrieval that was taken from the queue is about to be finished. -/
theorem Effect.of_taken {w' : World} {token : FetchToken} {frame : Frame} {frames : List Frame}
    (taken : w.Takes w' token) (goals : frame.goals = []) (other : frame.token? = none)
    (rest : frames.flatMap Frame.goals = []) (tokens : frames.filterMap Frame.token? = []) :
    Effect w frame .none (w'.evaluate token.resource) (.retrieved token :: frames) := by
  obtain ⟨loader, issued, policy, kept, hands⟩ := taken
  have calm := w'.evaluate_calm token.resource
  have shown : (Frame.retrieved token :: frames).filterMap Frame.token? = [token] := by
    simp only [List.filterMap_cons, Frame.token?, tokens]
  have perm : ((Frame.retrieved token :: frames).filterMap Frame.token? ++
      (w'.evaluate token.resource).inHand).Perm w.inHand := by
    rw [shown, calm.inHand]
    exact hands
  refine .calm ⟨?_, ?_, ?_, ?_, ?_⟩ ?_ ?_ ?_ ?_ perm.subperm other fun _ => perm
  · rw [calm.config, loader]
  · rw [calm.resolver, loader]
  · rw [calm.policy, policy]
  · exact Nat.le_trans (Nat.le_of_eq issued.symm) calm.issued
  · exact fun other empty => calm.unhanded (policy ▸ other) (kept ▸ empty)
  · rw [calm.ledger, loader]
  · rw [calm.barriers, loader]
  · exact loader ▸ calm.orderly
  · rw [goals]
    exact rest

theorem completeTaken_effect (site : Site) (actions : Script)
    (action : String) (taken : Option (World × FetchToken))
    (spec : ∀ w' token, taken = some (w', token) → w.Takes w' token) :
    Effect w (.script site actions) .none (w.completeTaken site action taken).1
      (w.completeTaken site action taken).2 := by
  unfold completeTaken
  split
  · exact act_calm (.refl w) rfl rfl
  · split
    · rename_i w' token
      exact Effect.of_taken (spec w' token rfl) rfl rfl rfl rfl
    · exact act_calm (.refl w) rfl rfl

/-- A retrieval that the host held is let go of. -/
theorem dropToken_spec {index : Nat} {token : FetchToken} (held : w.token? index = some token) :
    (token :: (w.dropToken index).inHand).Perm w.inHand := by
  simp only [token?, Option.join_eq_some_iff] at held
  obtain ⟨inside, here⟩ := Array.getElem?_eq_some_iff.mp held
  obtain ⟨before, after, split, dropped⟩ : ∃ before after,
      w.fetcher.tokens.toList = before ++ some token :: after ∧
        (w.fetcher.tokens.setIfInBounds index none).toList = before ++ none :: after := by
    refine ⟨w.fetcher.tokens.toList.take index, w.fetcher.tokens.toList.drop (index + 1), ?_, ?_⟩
    · rw [← here, ← Array.getElem_toList, List.getElem_cons_drop, List.take_append_drop]
    · rw [Array.toList_setIfInBounds, List.set_eq_take_append_cons_drop,
        if_pos (by simpa using inside)]
  unfold inHand dropToken
  dsimp only
  rw [dropped, split]
  simp only [List.filterMap_append, List.filterMap_cons, id_eq]
  rw [← List.append_assoc, ← List.append_assoc]
  exact List.perm_middle.symm

theorem actOnToken_effect (site : Site) (actions : Script) (index : Nat)
    (action : TokenAction) :
    Effect w (.script site actions) .none (w.actOnToken site index action).1
      (w.actOnToken site index action).2 := by
  unfold actOnToken
  split
  · exact act_calm (calm_of_same rfl rfl rfl) rfl rfl
  · rename_i token held
    have spec := dropToken_spec held
    have dropped (empty : w.fetcher.tokens = #[]) : (w.dropToken index).fetcher.tokens = #[] := by
      simp [dropToken, empty]
    cases action with
    | look => exact act_calm (calm_of_same rfl rfl rfl) rfl rfl
    | define draft =>
      exact act_calm (calm_of_quiet ((w.loader.register_edits _ none).quiet id)
        (Loader.register_orderly _ _ none) rfl rfl) rfl rfl
    | defineDerived draft =>
      exact act_calm (calm_of_quiet ((w.loader.defineDerived_edits _ _).quiet id)
        (Loader.defineDerived_orderly _ _ _) rfl rfl) rfl rfl
    | complete =>
      refine .calm ⟨rfl, rfl, rfl, Nat.le_refl _, fun _ => dropped⟩ rfl rfl (.refl _) rfl spec.subperm
        rfl fun _ => spec
    | abandon =>
      have calm := abandon_calm (w.dropToken index) token
      refine .calm ⟨calm.config, calm.resolver, calm.policy, calm.issued, fun _ => dropped⟩ calm.ledger
        calm.barriers calm.orderly rfl ?_ rfl fun empty => ?_
      · exact (List.sublist_cons_self token _).subperm.trans spec.subperm
      · simp [token?, empty] at held

/-- A callback that is passed on gets the next number. -/
theorem newCallback_calm (w : World) (site : Site) (tag : String) (body : Script) :
    w.Calm (w.newCallback site tag body).1 :=
  ⟨⟨rfl, rfl, rfl, Nat.le_succ _, fun _ => id⟩, rfl, rfl, .refl _, rfl⟩

theorem act_effect (site : Site) (action : Action) (rest : Script) :
    Effect w (.script site (action :: rest)) (Frame.occurrence w (.script site (action :: rest)))
      (w.act site action).1 (w.act site action).2 := by
  have still {w' : World} {frames : List Frame} (loader : w'.loader = w.loader)
      (fetcher : w'.fetcher = w.fetcher) (issued : w'.issued = w.issued)
      (goals : frames.flatMap Frame.goals = []) (tokens : frames.filterMap Frame.token? = []) :
      Effect w (.script site (action :: rest)) .none w' frames :=
    act_calm (calm_of_same loader fetcher issued) goals tokens
  cases action with
  | value a =>
    obtain ⟨loader, fetcher, issued, -⟩ := w.actOnValues_same site a
    simp only [act]
    generalize w.actOnValues site a = made at *
    obtain ⟨w', reply⟩ := made
    cases reply with
    | none => exact still loader fetcher issued rfl rfl
    | some reply => exact still loader fetcher issued rfl rfl
  | query | describe | unknown | giveBack => exact still rfl rfl rfl rfl rfl
  | get id into key =>
    simp only [act]
    split
    · exact still rfl rfl rfl rfl rfl
    · exact (w.getDependency_effect site _ _ id).extend rfl rfl
  | loadAsync ids tag body =>
    simp only [act, Frame.occurrence, asks?]
    cases site.context with
    | none => exact still rfl rfl rfl rfl rfl
    | some c => exact .passed _ (w.newCallback_calm site tag body) (Nat.lt_succ_self _) rfl rfl rfl rfl
  | giveBackDependency id =>
    simp only [act]
    split
    · exact still rfl rfl rfl rfl rfl
    · exact w.getDependency_effect site _ _ id
  | useModules ids tag body =>
    exact .passed _ (w.newCallback_calm site tag body) (Nat.lt_succ_self _) rfl rfl rfl rfl
  | load locators tag body =>
    exact .passed _ (w.newCallback_calm site tag body) (Nat.lt_succ_self _) rfl rfl rfl rfl
  | compile ref into =>
    simp only [act]
    split <;> exact still rfl rfl rfl rfl rfl
  | define draft =>
    exact act_calm (calm_of_quiet ((w.loader.register_edits _ none).quiet id)
      (Loader.register_orderly _ _ none) rfl rfl) rfl rfl
  | defineDerived draft derived =>
    exact act_calm (calm_of_quiet ((w.loader.defineDerived_edits _ derived).quiet id)
      (Loader.defineDerived_orderly _ _ derived) rfl rfl) rfl rfl
  | modify id body => exact (w.modify_effect site _ id body).extend rfl rfl
  | preload id =>
    exact act_calm (calm_of_quiet ⟨rfl, rfl, rfl, rfl⟩ (.of_same rfl rfl rfl) rfl rfl) rfl rfl
  | remove key =>
    simp only [Frame.occurrence, asks?]
    split
    · exact .removed _ ⟨rfl, rfl, rfl, Nat.le_refl _, fun _ => id⟩ rfl rfl rfl rfl rfl
    · rename_i absent
      refine act_calm (calm_of_quiet ⟨rfl, rfl, rfl, rfl⟩ ?_ rfl rfl) rfl rfl
      exact Loader.remove_absent (by simpa using absent)
  | keep ref into =>
    simp only [act]
    split <;> exact still rfl rfl rfl rfl rfl
  | setExports ref value =>
    simp only [act]
    split
    · exact still rfl rfl rfl rfl rfl
    · exact act_calm (calm_of_quiet (Loader.updateRecord_quiet _ _ _)
        (Loader.setExports_orderly _ _ _) rfl rfl) rfl rfl
  | addFile resource draft =>
    exact act_calm ⟨⟨rfl, rfl, rfl, Nat.le_refl _, fun _ => id⟩, rfl, rfl, .refl _, rfl⟩ rfl rfl
  | complete resource =>
    exact completeTaken_effect site _ _ _ fun _ _ taken => takeQueued?_spec taken
  | completeNext =>
    exact completeTaken_effect site _ _ _ fun _ _ taken => takeNext?_spec taken
  | completeAll =>
    simp only [act]
    split <;> exact still rfl rfl rfl rfl rfl
  | token index a => exact actOnToken_effect site _ index a
  | report severity message detail =>
    exact act_calm (calm_of_quiet (w.loader.emit_quiet _) (w.loader.emit_orderly _) rfl rfl) rfl rfl
  | clearDiagnostics =>
    exact act_calm (calm_of_quiet ⟨rfl, rfl, rfl, rfl⟩ (.of_same rfl rfl rfl) rfl rfl) rfl rfl

theorem runScript_effect (site : Site) (actions : Script) :
    Effect w (.script site actions) (Frame.occurrence w (.script site actions))
      (w.runScript site actions).1 (w.runScript site actions).2 := by
  cases actions with
  | nil => exact act_calm (calm_of_same rfl rfl rfl) rfl rfl
  | cons action rest =>
    have effect := act_effect (w := w) site action rest
    simp only [runScript]
    split
    · exact effect
    · exact effect.extend rfl rfl

/-! Loading. -/

theorem load_effect (w : World) (locators : List Locator) (onDone : Continuation) :
    Effect w (.load locators onDone) .none (w.load locators onDone).1 (w.load locators onDone).2 := by
  simp only [load]
  split
  · exact .of_calm (.refl w) rfl rfl rfl
  · rename_i pending
    exact .opened rfl (by simpa using pending) ⟨rfl, rfl, rfl, Nat.le_refl _, fun _ => id⟩ rfl rfl
      (.of_same rfl rfl rfl) rfl

/-- An arrival touches the point where it arrives, and otherwise it only moves on. -/
theorem arrive_counted (w : World) (b : BarrierId) (loaded : Option RecordId) :
    w.Counted b (w.arrive b loaded).1 (w.arrive b loaded).2 ∧
      w.Tame (w.arrive b loaded).1 ∧ (w.arrive b loaded).1.loader.ledger = w.loader.ledger ∧
      Orderly w.loader (w.arrive b loaded).1.loader := by
  obtain ⟨l, marked, quiet, orderly⟩ : ∃ l : Loader, w.loader.arrive b loaded = l.countDown b ∧
      Quiet w.loader l ∧ Orderly w.loader l := by
    cases loaded with
    | none => exact ⟨_, rfl, .refl _, .refl _⟩
    | some r =>
      refine ⟨_, rfl, ?_, ?_⟩ <;> unfold Loader.markReady <;> split
      · exact Loader.setStatus_quiet _ r .ready
      · exact .refl _
      · rename_i below
        exact Loader.setStatus_orderly _ (Nat.le_of_lt below)
      · exact .refl _
  have same : l.barrier b = w.loader.barrier b := congrArg (Table.get · b.index) quiet.barriers
  simp only [arrive, marked, Loader.countDown, same]
  split
  · rename_i last
    refine ⟨.inl ⟨last, ?_, rfl⟩, ⟨quiet.config, quiet.resolver, rfl, Nat.le_refl _, fun _ => id⟩,
      quiet.ledger, orderly.trans (.of_same rfl rfl rfl)⟩
    simp only [last]
    exact congrArg (Table.modify · b.index _) quiet.barriers
  · rename_i more
    refine ⟨.inr ⟨more, ?_, rfl⟩, ⟨quiet.config, quiet.resolver, rfl, Nat.le_refl _, fun _ => id⟩,
      quiet.ledger, orderly.trans (.of_same rfl rfl rfl)⟩
    exact congrArg (Table.modify · b.index _) quiet.barriers

theorem Counted.of_barriers {w' after : World} {b : BarrierId} {frames : List Frame}
    (counted : w'.Counted b after frames) (barriers : w'.loader.barriers = w.loader.barriers) :
    w.Counted b after frames := by
  have same : w'.loader.barrier b = w.loader.barrier b := congrArg (Table.get · b.index) barriers
  rw [Counted, same, barriers] at counted
  exact counted

theorem arrive_effect {w' : World} {frame : Frame} {b : BarrierId} (loaded : Option RecordId)
    (calm : w.Calm w') (goals : frame.goals = [.barrier b]) (other : frame.token? = none) :
    Effect w frame .none (w'.arrive b loaded).1 (w'.arrive b loaded).2 := by
  obtain ⟨counted, tame, ledger, orderly⟩ := w'.arrive_counted b loaded
  exact .arrived b (calm.toTame.trans tame) (ledger.trans calm.ledger)
    (counted.of_barriers calm.barriers) (calm.orderly.trans orderly) calm.inHand goals other

/-- What the fetcher does with a request, in its own hands or in those of the host. -/
theorem retrieve_spec (w : World) (token : FetchToken) :
    w.Tame (w.retrieve token).1 ∧ (w.retrieve token).1.loader.ledger = w.loader.ledger ∧
      (w.retrieve token).1.loader.barriers = w.loader.barriers ∧
      Orderly w.loader (w.retrieve token).1.loader ∧
      (w.retrieve token).2.flatMap Frame.goals = [] ∧
      ((w.retrieve token).2.filterMap Frame.token? ++ (w.retrieve token).1.inHand).Subperm
        (token :: w.inHand) ∧
      (w.fetcher.policy = .queued →
        ((w.retrieve token).2.filterMap Frame.token? ++ (w.retrieve token).1.inHand).Perm
          (token :: w.inHand)) := by
  let logged := { w with fetcher := w.fetcher.logRequest ⟨token.resource, w.loader.config.charset⟩ }
  have calm : w.Calm logged :=
    ⟨⟨rfl, rfl, rfl, Nat.le_refl _, fun _ => id⟩, rfl, rfl, .refl _, rfl⟩
  have spread {w' : World} (calm : w.Calm w') {frames : List Frame}
      (goals : frames.flatMap Frame.goals = [])
      (tokens : (frames.filterMap Frame.token?).Subperm [token]) (other : w.fetcher.policy ≠ .queued) :
      w.Tame w' ∧ w'.loader.ledger = w.loader.ledger ∧ w'.loader.barriers = w.loader.barriers ∧
        Orderly w.loader w'.loader ∧ frames.flatMap Frame.goals = [] ∧
        (frames.filterMap Frame.token? ++ w'.inHand).Subperm (token :: w.inHand) ∧
        (w.fetcher.policy = .queued →
          (frames.filterMap Frame.token? ++ w'.inHand).Perm (token :: w.inHand)) := by
    refine ⟨calm.toTame, calm.ledger, calm.barriers, calm.orderly, goals, ?_,
      fun queued => absurd queued other⟩
    rw [calm.inHand]
    exact tokens.append (List.Subperm.refl _)
  unfold retrieve
  split <;> rename_i policy
  · exact spread (calm.trans (logged.evaluate_calm _)) rfl (List.Subperm.refl [token])
      (by rw [policy]; decide)
  · exact spread (.refl w) rfl (List.Subperm.refl [token]) (by rw [policy]; decide)
  · have perm : ([] ++ World.inHand { logged with
        fetcher.queue := logged.fetcher.queue ++ [token] }).Perm (token :: w.inHand) := by
      simp only [inHand, logged, Fetcher.logRequest, List.nil_append, List.append_assoc]
      exact List.perm_middle
    exact ⟨⟨rfl, rfl, rfl, Nat.le_refl _, fun _ => id⟩, rfl, rfl, .refl _, rfl, perm.subperm,
      fun _ => perm⟩
  · exact spread (calm.trans (logged.evaluateDerived_calm token)) rfl
      (List.Subperm.refl [token]) (by rw [policy]; decide)
  · refine ⟨⟨rfl, rfl, rfl, Nat.le_refl _, fun other => absurd policy other⟩, rfl, rfl, .refl _, rfl,
      List.Perm.subperm ?_, fun queued => by cases policy.symm.trans queued⟩
    simp only [inHand, Fetcher.logRequest, List.filterMap_nil, List.nil_append, Array.toList_push,
      List.filterMap_append, List.filterMap_cons, id_eq, ← List.append_assoc]
    exact List.perm_append_singleton _ _
  · exact spread (calm.trans (abandon_calm logged token)) rfl List.nil_subperm (by rw [policy]; decide)

theorem enter_effect (sound : Sound w.loader) (locator : Locator) (rest : List Locator)
    (b : BarrierId) :
    Effect w (.entries (locator :: rest) b) (Frame.occurrence w (.entries (locator :: rest) b))
      (w.enter locator b).1 ((w.enter locator b).2 ++ [.entries rest b]) := by
  have made := w.loader.ensure_orderly locator (s := .fetching) (by decide)
  have quiet := w.loader.ensure_quiet locator .fetching
  have here := w.loader.entry_ensure locator locator .fetching
  rw [if_pos rfl] at here
  simp only [Frame.occurrence, startedBy?, enter]
  generalize w.loader.ensure locator .fetching = entered at *
  obtain ⟨l, r⟩ := entered
  dsimp only at *
  have calm : w.Calm { w with loader := l } := calm_of_quiet quiet made rfl rfl
  have waiting : (Frame.entries (locator :: rest) b).goals =
      .barrier b :: [Frame.entries rest b].flatMap Frame.goals := by
    simp [Frame.goals, List.replicate_succ]
  by_cases ended : Status.fetched ≤ l.status r
  · simp only [if_pos ended]
    exact .of_calm calm waiting.symm rfl rfl
  · simp only [if_neg ended]
    have await := l.awaitResource_cases ⟨locator, b⟩
    have orderly := l.awaitResource_orderly ⟨locator, b⟩
    have base := l.awaitResource_base ⟨locator, b⟩
    dsimp only at await
    generalize l.awaitResource ⟨locator, b⟩ = awaited at *
    obtain ⟨l', start⟩ := awaited
    dsimp only at *
    have tame : w.Tame { w with loader := l' } :=
      ⟨base.1.trans quiet.config, base.2.1.trans quiet.resolver, rfl, Nat.le_refl _, fun _ => id⟩
    have barriers := base.2.2.trans quiet.barriers
    obtain ⟨known, -, same⟩ | ⟨waiters, -, flying, rfl, ledger⟩ |
      ⟨missing, grounded, rfl, ledger⟩ := await
    · cases same
      have shared := (l.share_edits locator known).quiet id
      exact .of_calm (calm.trans (calm_of_quiet shared orderly rfl rfl)) waiting.symm rfl rfl
    · rw [quiet.resolver, quiet.ledger] at flying ledger
      exact .joined ⟨locator, b⟩ waiters tame flying ledger barriers (made.trans orderly) rfl
        waiting rfl rfl
    · rw [quiet.resolver, quiet.ledger] at *
      have spec := retrieve_spec { w with loader := l' }
        ⟨w.loader.resolver.physicalId locator, locator⟩
      obtain ⟨ground, ledger', barriers', kept, goals, tokens, whole⟩ := spec
      refine .started ⟨locator, b⟩ _ (tame.trans ground) rfl grounded ?_ (ledger'.trans ledger)
        (barriers'.trans barriers) ((made.trans orderly).trans kept) ?_ ?_ rfl fun queued => ?_
      · intro first done landed
        obtain ⟨known, held, fetched⟩ := (made sound).2.landed landed
        have own : l.entry? locator = some known := Decidable.byContradiction fun other => by
          simp [Loader.retrieved?, quiet.ledger, done, held, fetched, other] at missing
        cases here.symm.trans own
        exact ended fetched
      · rw [List.flatMap_append, goals]
        exact waiting
      · rw [List.filterMap_append, List.filterMap_cons_none rfl, List.filterMap_nil, List.append_nil]
        exact tokens
      · rw [List.filterMap_append, List.filterMap_cons_none rfl, List.filterMap_nil, List.append_nil]
        exact whole queued

theorem settle_effect (w : World) (locator : Locator) (b : BarrierId) :
    Effect w (.settled locator b) .none (w.settle locator b).1 (w.settle locator b).2 := by
  have calm : w.Calm { w with loader := (w.loader.settledEntry locator).1 } :=
    calm_of_quiet ((w.loader.settledEntry_edits locator).quiet id) (w.loader.settledEntry_orderly locator) rfl rfl
  unfold settle
  generalize w.loader.settledEntry locator = read at *
  obtain ⟨l, entry⟩ := read
  cases entry with
  | missing => exact arrive_effect none calm rfl rfl
  | ready r => exact arrive_effect (some r) calm rfl rfl
  | waits r dependencies => exact .of_calm calm rfl rfl rfl

theorem resume_effect (w : World) (continuation : Continuation) :
    Effect w (.resume continuation) (Frame.occurrence w (.resume continuation))
      (w.resume continuation).1 (w.resume continuation).2 := by
  cases continuation with
  | arrive b r => exact arrive_effect (some r) (.refl w) rfl rfl
  | request | preload | gather => exact .of_calm (.refl w) rfl rfl rfl
  | call callback => exact .called _ (w.callBack_calm callback []) rfl rfl rfl rfl

theorem preload_effect (w : World) (next : Continuation) :
    Effect w (.preload next) .none (w.preload next).1 (w.preload next).2 := by
  unfold preload
  split
  · exact .of_calm (.refl w) rfl rfl rfl
  · exact .of_calm (calm_of_quiet ⟨rfl, rfl, rfl, rfl⟩ (.of_same rfl rfl rfl) rfl rfl) rfl rfl rfl

theorem gather_effect (w : World) (locators : List (Option Locator))
    (interfaces : List (Option Value)) (receiver : Receiver) :
    Effect w (.gather locators interfaces receiver) .none
      (w.gather interfaces receiver locators).1 (w.gather interfaces receiver locators).2 := by
  cases locators with
  | nil => exact .of_calm (.refl w) rfl rfl rfl
  | cons locator rest =>
    simp only [gather]
    cases locator.bind w.loader.entry? with
    | some r => exact .of_calm (.refl w) rfl rfl rfl
    | none => exact .of_calm (.refl w) rfl rfl rfl

theorem finishFetch_effect (sound : Sound w.loader) (token : FetchToken) :
    Effect w (.retrieved token) (.finished token) (w.finishFetch token).1 (w.finishFetch token).2 := by
  have quiet := w.loader.finishFetch_quiet token
  exact .finished token ⟨quiet.config, quiet.resolver, rfl, Nat.le_refl _, fun _ => id⟩ rfl quiet.ledger
    quiet.barriers (w.loader.finishFetch_orderly token) (Loader.finishFetch_landed sound token) rfl

/-! Compiling. -/

theorem compile_effect (w : World) (r : RecordId) :
    Effect w (.compile r) .none (w.compile r).1 (w.compile r).2 := by
  have same (answer : Option Value) : w.Calm { w with answer } := calm_of_same rfl rfl rfl
  unfold compile
  split
  · exact .of_calm (same _) rfl rfl rfl
  · exact .of_calm (same _) rfl rfl rfl
  · rename_i below below'
    split
    · have rising : w.loader.status r ≤ .compiling := by
        revert below below'
        cases w.loader.status r <;> simp_all [Status.le_iff, Status.code]
      have started (interface : Value) : Quiet w.loader (w.loader.beginCompile r interface) :=
        Loader.updateRecord_quiet _ _ _
      have orderly (interface : Value) := w.loader.beginCompile_orderly interface rising
      dsimp only
      split
      · exact .of_calm (calm_of_quiet ⟨rfl, rfl, rfl, rfl⟩
          ((orderly _).trans (.of_same rfl rfl rfl)) rfl rfl) rfl rfl rfl
      · exact .of_calm (calm_of_quiet ⟨rfl, rfl, rfl, rfl⟩
          ((orderly _).trans (Loader.setExports_orderly _ _ _)) rfl rfl) rfl rfl rfl
      · exact .of_calm (calm_of_quiet (started _) (orderly _) rfl rfl) rfl rfl rfl
    · exact .of_calm (same _) rfl rfl rfl

theorem enterBody_effect (w : World) {frame : Frame} (r : RecordId) (role : String) (body : Script)
    (goals : frame.goals = []) (other : frame.token? = none) :
    Effect w frame .none (w.enterBody r role body).1 (w.enterBody r role body).2 := by
  refine .of_calm (calm_of_same rfl ?_ ?_) ?_ rfl other
  · rfl
  · rfl
  · exact goals.symm

theorem finishCompile_effect (w : World) (r : RecordId) :
    Effect w (.finishCompile r) .none (w.finishCompile r).1 (w.finishCompile r).2 := by
  refine .of_calm (calm_of_quiet (Loader.setStatus_quiet _ _ _)
    (Loader.setStatus_orderly _ (Status.le_compiled _)) rfl rfl) ?_ ?_ rfl
  · simp [finishCompile, List.flatMap_append, List.flatMap_map, Frame.goals]
  · simp [finishCompile, List.filterMap_append, List.filterMap_map, Function.comp_def, Frame.token?]

theorem applyPatches_effect (w : World) (key : Locator) (r : RecordId) :
    Effect w (.applyPatches key r) .none (w.applyPatches key r).1 (w.applyPatches key r).2 := by
  refine .of_calm (calm_of_quiet ⟨rfl, rfl, rfl, rfl⟩ (.of_same rfl rfl rfl) rfl rfl) ?_ ?_ rfl
  · simp [applyPatches, List.flatMap_assoc, Frame.goals]
  · simp [applyPatches, List.filterMap_flatMap, Frame.token?]

theorem completeRest_effect (site : Site) (done : Nat) :
    Effect w (.completeRest site done) .none (Frame.exec w (.completeRest site done)).1
      (Frame.exec w (.completeRest site done)).2 := by
  simp only [Frame.exec]
  split
  · rename_i w' token taken
    exact Effect.of_taken (takeNext?_spec taken) rfl rfl rfl rfl
  · exact .of_calm (calm_of_same rfl rfl rfl) rfl rfl rfl

end World

/-- The work of a frame has an effect of the kind that it shows. -/
theorem Frame.effect {w : World} (sound : Sound w.loader) (frame : Frame) :
    Effect w frame (frame.occurrence w) (frame.exec w).1 (frame.exec w).2 := by
  cases frame with
  | script site actions => exact World.runScript_effect site actions
  | conclude site conclusion =>
    obtain ⟨loader, fetcher, issued, -⟩ := w.conclude_same site conclusion
    exact .of_calm (World.calm_of_same loader fetcher issued) rfl rfl rfl
  | load locators onDone => exact w.load_effect locators onDone
  | entries locators b =>
    cases locators with
    | nil => exact .of_calm (.refl w) rfl rfl rfl
    | cons locator rest => exact World.enter_effect sound locator rest b
  | settled locator b => exact w.settle_effect locator b
  | resume continuation => exact w.resume_effect continuation
  | request referrer ids receiver => exact .of_calm (.refl w) rfl rfl rfl
  | preload next => exact w.preload_effect next
  | gather locators interfaces receiver => exact w.gather_effect locators interfaces receiver
  | collect locators interfaces receiver => exact .of_calm (.refl w) rfl rfl rfl
  | deliver receiver interfaces =>
    cases receiver with
    | host callback => exact .called _ (w.callBack_calm callback interfaces) rfl rfl rfl rfl
    | discard next => exact .of_calm (.refl w) rfl rfl rfl
  | retrieved token => exact World.finishFetch_effect sound token
  | compile r => exact w.compile_effect r
  | runFactory r body => exact w.enterBody_effect r "factory" body rfl rfl
  | runPatch r patch => exact w.enterBody_effect r "patch" patch.body rfl rfl
  | replaceInterface r =>
    simp only [exec]
    split
    · exact .of_calm (World.calm_of_quiet (Loader.updateRecord_quiet _ _ _)
        (Loader.setExports_orderly _ _ _) rfl rfl) rfl rfl rfl
    · exact .of_calm (.refl w) rfl rfl rfl
  | leaveFactory =>
    exact .of_calm (World.calm_of_quiet ⟨rfl, rfl, rfl, rfl⟩ (.of_same rfl rfl rfl) rfl rfl) rfl rfl rfl
  | finishCompile r => exact w.finishCompile_effect r
  | applyPatches key r => exact w.applyPatches_effect key r
  | answerExports r => exact .of_calm (World.calm_of_same rfl rfl rfl) rfl rfl rfl
  | completeRest site done => exact World.completeRest_effect site done

namespace Effect

variable {w w' : World} {frame : Frame} {frames : List Frame} {o : Occurrence}

theorem tame (effect : Effect w frame o w' frames) : w.Tame w' := by
  cases effect with
  | calm tame => exact tame
  | removed locator tame => exact tame
  | passed wanted calm => exact calm.toTame
  | called number calm => exact calm.toTame
  | opened same nonempty tame => exact tame
  | joined waiter waiters tame => exact tame
  | started waiter token tame => exact tame
  | arrived b tame => exact tame
  | finished token tame => exact tame

/-- Unless something is removed, the loader only moves on. -/
theorem orderly (effect : Effect w frame o w' frames) (kept : ∀ locator, o ≠ .removed locator) :
    Orderly w.loader w'.loader := by
  cases effect with
  | calm tame ledger barriers orderly => exact orderly
  | removed locator => exact absurd rfl (kept locator)
  | passed wanted calm => exact calm.orderly
  | called number calm => exact calm.orderly
  | opened same nonempty tame ledger barriers orderly => exact orderly
  | joined waiter waiters tame flying ledger barriers orderly => exact orderly
  | started waiter token tame same grounded stale ledger barriers orderly => exact orderly
  | arrived b tame ledger counted orderly => exact orderly
  | finished token tame same ledger barriers orderly => exact orderly

theorem sound (effect : Effect w frame o w' frames) (sound : Sound w.loader) : Sound w'.loader := by
  by_cases kept : ∀ locator, o ≠ .removed locator
  · exact (effect.orderly kept sound).1
  · cases effect with
    | removed locator tame loader =>
      rw [loader]
      exact Loader.remove_sound sound locator
    | _ => exact absurd (fun _ => Occurrence.noConfusion) kept

/-- A frame that nothing waits for has no part in loads. -/
theorem barriers_of_goals (effect : Effect w frame o w' frames) (goals : frame.goals = []) :
    w'.loader.barriers = w.loader.barriers := by
  cases effect with
  | calm tame ledger barriers => exact barriers
  | removed locator tame loader => rw [loader]; rfl
  | passed wanted calm => exact calm.barriers
  | called number calm => exact calm.barriers
  | opened same => cases same; cases goals
  | joined waiter waiters tame flying ledger barriers => exact barriers
  | started waiter token tame same grounded stale ledger barriers => exact barriers
  | arrived b tame ledger counted orderly inHand some => cases goals.symm.trans some
  | finished token tame same ledger barriers => exact barriers

/-- What waits for a load has waited before, unless it is the load that begins. -/
theorem waiting (effect : Effect w frame o w' frames) {b : BarrierId} {next : Continuation}
    (waits : (w'.loader.barrier b).onDone = some next) :
    (w.loader.barrier b).onDone = some next ∨ ∃ wanted, frame = .load wanted next := by
  have before (barriers : w'.loader.barriers = w.loader.barriers) :
      (w.loader.barrier b).onDone = some next := by
    rw [Loader.barrier, ← barriers]
    exact waits
  cases effect with
  | calm tame ledger barriers => exact .inl (before barriers)
  | removed locator tame loader => exact .inl (before (by rw [loader]; rfl))
  | passed wanted calm => exact .inl (before calm.barriers)
  | called number calm => exact .inl (before calm.barriers)
  | opened same nonempty tame ledger barriers =>
    rw [Loader.barrier, barriers, Table.get_push] at waits
    split at waits
    · cases waits
      exact .inr ⟨_, same⟩
    · exact .inl waits
  | joined waiter waiters tame flying ledger barriers => exact .inl (before barriers)
  | started waiter token tame same grounded stale ledger barriers => exact .inl (before barriers)
  | arrived x tame ledger counted =>
    refine .inl ?_
    obtain ⟨-, barriers, -⟩ | ⟨-, barriers, -⟩ := counted
    · rw [Loader.barrier, barriers, Table.get_modify] at waits
      split at waits
      · cases waits
      · exact waits
    · rw [Loader.barrier, barriers, Table.get_modify] at waits
      split at waits
      · exact waits
      · exact waits
  | finished token tame same ledger barriers => exact .inl (before barriers)

end Effect

/-- The loader is sound at every moment. -/
theorem Run.sound {host : Action → Prop} {setup : Setup} {past : List Machine} {m : Machine}
    (run : Run host (.fresh setup) past m) : Sound m.world.loader := by
  refine run.invariant (P := fun _ m => Sound m.world.loader) ?_ ?_ ?_
  · rw [Machine.fresh, (World.start_spec setup).1]
    exact Loader.new_sound _ _ _
  · intro past w frame rest _ sound
    exact (frame.effect sound).sound sound
  · intro past w action _ _ sound
    exact sound

end ModuleLoader
