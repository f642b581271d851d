import ModuleLoader.Proofs.Handing

/-! What waits for loads is out of sight. A step reads the points where entries come together only when a load
begins or an entry arrives; everything else that it does is the same whatever waits there. -/
namespace ModuleLoader

namespace Loader

/-- The same loader with other loads in progress. -/
def awaiting (l : Loader) (t : Table Barrier) : Loader := { l with barriers := t }

variable (l : Loader) (t : Table Barrier)

theorem entry?_awaiting (k : Locator) : Loader.entry? (l.awaiting t) k = l.entry? k := rfl

theorem record_awaiting (r : RecordId) : (l.awaiting t).record r = l.record r := rfl

theorem status_awaiting (r : RecordId) : (l.awaiting t).status r = l.status r := rfl

theorem foldl_awaiting {α : Type} {f : Loader → α → Loader}
    (each : ∀ l a, f (l.awaiting t) a = (f l a).awaiting t) (as : List α) (l : Loader) :
    as.foldl f (l.awaiting t) = (as.foldl f l).awaiting t := by
  induction as generalizing l with
  | nil => rfl
  | cons a as ih => rw [List.foldl_cons, each, ih, List.foldl_cons]

theorem emit_awaiting (d : Diagnostic) : (l.awaiting t).emit d = (l.emit d).awaiting t := by
  cases traced : (l.sink.emit d).2 <;> (unfold emit awaiting; simp only [traced]; try rfl)

theorem report_awaiting (c : Condition) : (l.awaiting t).report c = (l.report c).awaiting t :=
  l.emit_awaiting t c.diagnostic

theorem reportAll_awaiting (cs : List Condition) : (l.awaiting t).reportAll cs = (l.reportAll cs).awaiting t :=
  foldl_awaiting t (fun l c => l.report_awaiting t c) cs l

theorem ensure_awaiting (k : Locator) (s : Status) :
    (l.awaiting t).ensure k s = ((l.ensure k s).1.awaiting t, (l.ensure k s).2) := by
  unfold ensure
  rw [entry?_awaiting]
  cases l.entry? k <;> rfl

/-! Registering. -/

theorem save_awaiting (k : Locator) (d : Definition) :
    (l.awaiting t).save k d = ((l.save k d).1.awaiting t, (l.save k d).2) := by
  unfold save
  rw [ensure_awaiting]
  obtain ⟨l, r⟩ := l.ensure k .unknown
  dsimp only
  rw [status_awaiting]
  split <;> rfl

theorem park_awaiting (d : Definition) : (l.awaiting t).park d = (l.park d).awaiting t := by
  have parked : { l.awaiting t with anonymous := some d } = { l with anonymous := some d }.awaiting t := rfl
  have pending : (l.awaiting t).anonymous = l.anonymous := rfl
  unfold park
  dsimp only
  rw [parked, pending, report_awaiting]
  split <;> rfl

theorem dropTakeover_awaiting (k : Locator) : (l.awaiting t).dropTakeover k = (l.dropTakeover k).awaiting t := by
  unfold dropTakeover
  rw [entry?_awaiting]
  cases l.entry? k with
  | none => rfl
  | some r =>
    dsimp only
    rw [status_awaiting, record_awaiting]
    split <;> rfl

theorem takePlaceholder_awaiting (k : Locator) (r : RecordId) :
    (l.awaiting t).takePlaceholder k r = (l.takePlaceholder k r).awaiting t := by
  unfold takePlaceholder
  rw [entry?_awaiting]
  cases l.entry? k with
  | none => rfl
  | some current =>
    dsimp only
    rw [status_awaiting]
    split <;> rfl

theorem rememberFirst_awaiting (r : RecordId) :
    (l.awaiting t).rememberFirst r = (l.rememberFirst r).awaiting t := by
  have flying : (l.awaiting t).ledger = l.ledger := rfl
  have remembered : (l.awaiting t).firstNamed = l.firstNamed := rfl
  unfold rememberFirst
  rw [flying, remembered]
  split <;> rfl

theorem register_awaiting (registration : Registration) (derived : Option Locator) :
    (l.awaiting t).register registration derived = (l.register registration derived).awaiting t := by
  have meaning : (l.awaiting t).resolve = l.resolve := rfl
  unfold register
  dsimp only
  rw [meaning]
  cases (registration.definition.id.bind fun id => l.resolve id none).or derived with
  | none => exact park_awaiting ..
  | some k =>
    dsimp only
    have dropped : (if derived = some k then (l.awaiting t).dropTakeover k else l.awaiting t) =
        (if derived = some k then l.dropTakeover k else l).awaiting t := by
      split
      · exact dropTakeover_awaiting ..
      · rfl
    rw [dropped, save_awaiting]
    cases derived with
    | none => exact rememberFirst_awaiting ..
    | some d => exact takePlaceholder_awaiting ..

theorem define_awaiting (registration : Registration) :
    (l.awaiting t).define registration = (l.define registration).awaiting t := register_awaiting ..

theorem defineDerived_awaiting (registration : Registration) (derived : Option Locator) :
    (l.awaiting t).defineDerived registration derived = (l.defineDerived registration derived).awaiting t := by
  unfold defineDerived
  split
  · rw [report_awaiting]
    exact register_awaiting ..
  · exact register_awaiting ..

/-! Retrieving. -/

theorem share_awaiting (k : Locator) (r : RecordId) : (l.awaiting t).share k r = (l.share k r).awaiting t := by
  unfold share
  have free : (l.awaiting t).isFreeFor k r = l.isFreeFor k r := rfl
  rw [free]
  dsimp only
  split
  · have after : ((l.awaiting t).note (.shared k ((l.awaiting t).record r).locator)).point k r =
        ((l.note (.shared k (l.record r).locator)).point k r).awaiting t := rfl
    rw [after, record_awaiting, record_awaiting]
    split <;> rfl
  · rfl

theorem awaitResource_awaiting (waiter : Waiter) :
    (l.awaiting t).awaitResource waiter =
      ((l.awaitResource waiter).1.awaiting t, (l.awaitResource waiter).2) := by
  unfold awaitResource
  have known : (l.awaiting t).retrieved? (l.resolver.physicalId waiter.locator) waiter.locator =
      l.retrieved? (l.resolver.physicalId waiter.locator) waiter.locator := rfl
  have resolver : (l.awaiting t).resolver = l.resolver := rfl
  dsimp only
  rw [resolver, known]
  cases l.retrieved? (l.resolver.physicalId waiter.locator) waiter.locator with
  | some known => exact congrArg (·, _) (share_awaiting ..)
  | none =>
    have flying : ((l.awaiting t).forgetCompleted (l.resolver.physicalId waiter.locator)).ledger =
        (l.forgetCompleted (l.resolver.physicalId waiter.locator)).ledger := rfl
    dsimp only
    rw [flying]
    cases (l.forgetCompleted (l.resolver.physicalId waiter.locator)).ledger.inFlight.get? _ <;> rfl

theorem nameAnonymous_awaiting (k : Locator) :
    (l.awaiting t).nameAnonymous k = (l.nameAnonymous k).awaiting t := by
  have parked : (l.awaiting t).anonymous = l.anonymous := rfl
  unfold nameAnonymous
  rw [parked]
  cases l.anonymous with
  | none => rfl
  | some d =>
    have emptied : { l.awaiting t with anonymous := none } = { l with anonymous := none }.awaiting t := rfl
    dsimp only
    rw [emptied, save_awaiting]

theorem endFetching_awaiting (r : RecordId) : (l.awaiting t).endFetching r = (l.endFetching r).awaiting t := by
  unfold endFetching
  rw [status_awaiting]
  split <;> rfl

theorem takeFirstNamed_awaiting (k : Locator) (r : RecordId) :
    (l.awaiting t).takeFirstNamed k r = (l.takeFirstNamed k r).awaiting t := by
  have remembered : (l.awaiting t).firstNamed = l.firstNamed := rfl
  unfold takeFirstNamed
  rw [remembered]
  cases l.firstNamed with
  | none => rfl
  | some first =>
    have emptied : { l.awaiting t with firstNamed := none } = { l with firstNamed := none }.awaiting t := rfl
    dsimp only
    rw [emptied, status_awaiting]
    split <;> rfl

theorem settleJoined_awaiting (target : RecordId) (k : Locator) :
    (l.awaiting t).settleJoined target k = (l.settleJoined target k).awaiting t := by
  unfold settleJoined
  rw [status_awaiting, entry?_awaiting]
  split
  · exact share_awaiting ..
  · cases l.entry? k with
    | none => rfl
    | some r => exact endFetching_awaiting ..

theorem settle_awaiting (token : FetchToken) (waiters : List Waiter) :
    (l.awaiting t).settle token waiters = (l.settle token waiters).awaiting t := by
  unfold settle
  rw [ensure_awaiting]
  obtain ⟨l, r⟩ := l.ensure token.locator .fetching
  dsimp only
  rw [endFetching_awaiting, nameAnonymous_awaiting, takeFirstNamed_awaiting]
  generalize ((l.endFetching r).nameAnonymous token.locator).takeFirstNamed token.locator r = l
  rw [entry?_awaiting]
  cases l.entry? token.locator with
  | none => rfl
  | some target => exact foldl_awaiting t (fun l k => l.settleJoined_awaiting t target k) _ l

theorem finishFetch_awaiting (token : FetchToken) :
    (l.awaiting t).finishFetch token = ((l.finishFetch token).1.awaiting t, (l.finishFetch token).2) := by
  unfold finishFetch
  have closed : ((l.awaiting t).note (.fetched token.locator token.resource)).closeRetrieval token =
      ((l.note (.fetched token.locator token.resource)).closeRetrieval token).awaiting t := rfl
  dsimp only
  rw [closed, settle_awaiting]
  rfl

/-! Loading. -/

theorem waitingPath?_awaiting (fuel : Nat) (path : List Locator) (k : Locator) :
    (l.awaiting t).waitingPath? fuel path k = l.waitingPath? fuel path k := by
  induction fuel generalizing path k with
  | zero => rfl
  | succ fuel ih =>
    have deeper (path : List Locator) : (l.awaiting t).waitingPath? fuel path = l.waitingPath? fuel path :=
      funext (ih path)
    simp only [waitingPath?, deeper]
    rfl

theorem pureDependencies_awaiting (r : RecordId) :
    (l.awaiting t).pureDependencies r = l.pureDependencies r := by
  have circle (k d : Locator) : (l.awaiting t).circle? k d = l.circle? k d :=
    congrArg (Option.map _) (l.waitingPath?_awaiting t ..)
  simp only [pureDependencies, circle]
  rfl

theorem settledEntry_awaiting (k : Locator) :
    (l.awaiting t).settledEntry k = ((l.settledEntry k).1.awaiting t, (l.settledEntry k).2) := by
  unfold settledEntry
  rw [entry?_awaiting]
  cases l.entry? k with
  | none => rfl
  | some r =>
    dsimp only
    rw [status_awaiting, pureDependencies_awaiting]
    split
    · rfl
    · obtain ⟨dependencies, circles⟩ := l.pureDependencies r
      exact congrArg (·, _) (reportAll_awaiting ..)

theorem markReady_awaiting (r : RecordId) : (l.awaiting t).markReady r = (l.markReady r).awaiting t := by
  unfold markReady
  rw [status_awaiting]
  split <;> rfl

end Loader

namespace World

/-- The same world with other loads in progress. -/
def awaiting (w : World) (t : Table Barrier) : World := { w with loader := w.loader.awaiting t }

/-- The same outcome with other loads in progress. -/
def Elsewhere {α : Type} (t : Table Barrier) (done : World × α) : World × α := (done.1.awaiting t, done.2)

variable (w : World) (t : Table Barrier)

theorem store_awaiting (into : Option String) (value : Value) :
    (w.awaiting t).store into value = (w.store into value).awaiting t := by cases into <;> rfl

theorem eval_awaiting (site : Site) (e : Expr) : (w.awaiting t).eval site e = Elsewhere t (w.eval site e) := rfl

theorem actOnValues_awaiting (site : Site) (action : ValueAction) :
    (w.awaiting t).actOnValues site action = Elsewhere t (w.actOnValues site action) := by
  cases action with
  | assign value into => exact congrArg (·, none) (store_awaiting (w.eval site value).1 t into _)
  | nest value times inLists into =>
    exact congrArg (·, none) (store_awaiting { w with memory := (wrap _ inLists times _).1 } t into _)
  | member target key into => exact congrArg (·, _) (store_awaiting (w.eval site target).1 t into _)
  | bump counter into =>
    exact congrArg (·, _) (store_awaiting { w with counters := w.counters.insert counter _ } t into _)
  | put target key value =>
    unfold actOnValues
    dsimp only
    rw [eval_awaiting]
    obtain ⟨w, object⟩ := w.eval site target
    dsimp only [Elsewhere]
    rw [eval_awaiting]
    obtain ⟨w, value⟩ := w.eval site value
    cases object <;> rfl
  | dropKey target | hasKey target | keys target =>
    unfold actOnValues
    dsimp only
    rw [eval_awaiting]
    obtain ⟨w, object⟩ := w.eval site target
    cases object <;> rfl
  | compareObjects left right =>
    unfold actOnValues
    dsimp only
    rw [eval_awaiting]
    obtain ⟨w, left⟩ := w.eval site left
    dsimp only [Elsewhere]
    rw [eval_awaiting]
    obtain ⟨w, right⟩ := w.eval site right
    cases left <;> first | rfl | (cases right <;> rfl)
  | _ => rfl

theorem ask_awaiting (site : Site) (query : Query) : (w.awaiting t).ask site query = w.ask site query := by
  cases query with
  | prune ref =>
    have pruned (r : RecordId) : (w.awaiting t).loader.pureDependencies r = w.loader.pureDependencies r :=
      w.loader.pureDependencies_awaiting t r
    simp only [ask, pruned]
    rfl
  | _ => rfl

theorem evaluate_awaiting (p : PhysicalId) : (w.awaiting t).evaluate p = (w.evaluate p).awaiting t :=
  congrArg (fun l => { w with loader := l })
    (Loader.foldl_awaiting t (fun l registration => l.define_awaiting t registration) _ w.loader)

theorem evaluateDerived_awaiting (token : FetchToken) :
    (w.awaiting t).evaluateDerived token = (w.evaluateDerived token).awaiting t :=
  congrArg (fun l => { w with loader := l })
    (Loader.foldl_awaiting t (fun l registration => l.defineDerived_awaiting t registration _) _ w.loader)

theorem abandon_awaiting (token : FetchToken) : (w.awaiting t).abandon token = (w.abandon token).awaiting t :=
  congrArg (fun l => { w with loader := l }) (w.loader.report_awaiting t _)

theorem retrieve_awaiting (token : FetchToken) :
    (w.awaiting t).retrieve token = Elsewhere t (w.retrieve token) := by
  have logged : { w.awaiting t with fetcher := w.fetcher.logRequest ⟨token.resource, w.loader.config.charset⟩ } =
      { w with fetcher := w.fetcher.logRequest ⟨token.resource, w.loader.config.charset⟩ }.awaiting t := rfl
  have asked : (w.awaiting t).fetcher = w.fetcher := rfl
  have charset : (w.awaiting t).loader.config.charset = w.loader.config.charset := rfl
  unfold retrieve
  dsimp only
  rw [asked, charset, logged, evaluate_awaiting, evaluateDerived_awaiting, abandon_awaiting]
  cases w.fetcher.policy <;> rfl

theorem enter_awaiting (k : Locator) (b : BarrierId) : (w.awaiting t).enter k b = Elsewhere t (w.enter k b) := by
  have ensured : (w.awaiting t).loader.ensure k .fetching = _ := w.loader.ensure_awaiting t k .fetching
  unfold enter
  rw [ensured]
  obtain ⟨l, r⟩ := w.loader.ensure k .fetching
  dsimp only
  rw [Loader.status_awaiting, Loader.awaitResource_awaiting]
  split
  · rfl
  · obtain ⟨l, start⟩ := l.awaitResource ⟨k, b⟩
    cases start with
    | ready | joined => rfl
    | started token => exact retrieve_awaiting { w with loader := l } t token

theorem getDependency_awaiting (c : Context) (id : String) :
    (w.awaiting t).getDependency c id = Elsewhere t (w.getDependency c id) := by
  have resolve : (w.awaiting t).loader.resolve = w.loader.resolve := rfl
  have record : (w.awaiting t).loader.record = w.loader.record := rfl
  have entry : Loader.entry? (w.awaiting t).loader = w.loader.entry? := rfl
  have status : (w.awaiting t).loader.status = w.loader.status := rfl
  unfold getDependency
  dsimp only
  rw [resolve, record, entry, status]
  cases w.loader.resolve id (some (w.loader.record c.record).locator) with
  | none => rfl
  | some k =>
    dsimp only
    cases w.loader.entry? k with
    | none => rfl
    | some r =>
      dsimp only
      cases w.loader.status r <;> rfl

theorem modify_awaiting (id : String) (body : Script) :
    (w.awaiting t).modify id body = Elsewhere t (w.modify id body) := by
  have resolve : (w.awaiting t).loader.resolve = w.loader.resolve := rfl
  unfold modify
  rw [resolve]
  cases w.loader.resolve id none with
  | none => exact congrArg (fun l => ({ w with loader := l }, _)) (w.loader.report_awaiting t _)
  | some target =>
    have entry : Loader.entry? ((w.awaiting t).newPatch target body).1.loader = w.loader.entry? := rfl
    have same : Loader.entry? (w.newPatch target body).1.loader = w.loader.entry? := rfl
    dsimp only
    rw [entry, same]
    cases w.loader.entry? target with
    | none => rfl
    | some r =>
      have status : ((w.awaiting t).newPatch target body).1.loader.status = w.loader.status := rfl
      have same : (w.newPatch target body).1.loader.status = w.loader.status := rfl
      dsimp only
      rw [status, same]
      split <;> rfl

theorem actOnToken_awaiting (site : Site) (index : Nat) (action : TokenAction) :
    (w.awaiting t).actOnToken site index action = Elsewhere t (w.actOnToken site index action) := by
  have held : (w.awaiting t).token? index = w.token? index := rfl
  unfold actOnToken
  rw [held]
  cases w.token? index with
  | none => rfl
  | some token =>
    cases action with
    | look | complete => rfl
    | define draft =>
      have defined := (w.evalDraft site draft).1.loader.define_awaiting t (w.evalDraft site draft).2
      exact congrArg (fun l => (World.write { (w.evalDraft site draft).1 with loader := l } _ _ _, _)) defined
    | defineDerived draft =>
      have defined := (w.evalDraft site draft).1.loader.defineDerived_awaiting t (w.evalDraft site draft).2
        (some token.locator)
      exact congrArg (fun l => (World.write { (w.evalDraft site draft).1 with loader := l } _ _ _, _)) defined
    | abandon =>
      exact congrArg (fun w => (World.write w _ _ _, _)) ((w.dropToken index).abandon_awaiting t token)

theorem takeQueued?_awaiting (p : PhysicalId) :
    (w.awaiting t).takeQueued? p = (w.takeQueued? p).map fun found => (found.1.awaiting t, found.2) := by
  have asked : (w.awaiting t).fetcher = w.fetcher := rfl
  unfold takeQueued?
  rw [asked]
  cases w.fetcher.queue.find? (·.resource = p) <;> rfl

theorem takeNext?_awaiting :
    (w.awaiting t).takeNext? = w.takeNext?.map fun found => (found.1.awaiting t, found.2) := by
  have asked : (w.awaiting t).fetcher = w.fetcher := rfl
  unfold takeNext?
  rw [asked]
  cases w.fetcher.queue <;> rfl

theorem completeTaken_awaiting (site : Site) (action : String) (taken : Option (World × FetchToken)) :
    (w.awaiting t).completeTaken site action (taken.map fun found => (found.1.awaiting t, found.2)) =
      Elsewhere t (w.completeTaken site action taken) := by
  have asked : (w.awaiting t).fetcher = w.fetcher := rfl
  unfold completeTaken
  rw [asked]
  split
  · rfl
  · cases taken with
    | none => rfl
    | some found => exact congrArg (·, _) (evaluate_awaiting found.1 t _)

theorem act_awaiting (site : Site) (action : Action) :
    (w.awaiting t).act site action = Elsewhere t (w.act site action) := by
  have find (ref : RecordRef) : (w.awaiting t).find? site ref = w.find? site ref := by cases ref <;> rfl
  cases action with
  | value action =>
    have acted := w.actOnValues_awaiting t site action
    unfold act
    dsimp only
    rw [acted]
    obtain ⟨w, reply⟩ := w.actOnValues site action
    cases reply <;> rfl
  | query query =>
    have asked := w.ask_awaiting t site query
    unfold act
    dsimp only
    rw [asked]
    rfl
  | get id into key =>
    unfold act
    dsimp only
    cases site.context with
    | none => rfl
    | some c => exact congrArg (fun done => (done.1, done.2 ++ _)) (w.getDependency_awaiting t c id)
  | loadAsync ids tag body => 
    unfold act
    cases site.context <;> rfl
  | giveBackDependency id =>
    unfold act
    dsimp only
    cases site.context with
    | none => rfl
    | some c => exact w.getDependency_awaiting t c id
  | compile ref into =>
    unfold act
    dsimp only
    rw [find]
    cases w.find? site ref <;> rfl
  | define draft =>
    have defined := (w.evalDraft site draft).1.loader.define_awaiting t (w.evalDraft site draft).2
    exact congrArg (fun l => ({ (w.evalDraft site draft).1 with loader := l }, _)) defined
  | defineDerived draft derived =>
    have defined := (w.evalDraft site draft).1.loader.defineDerived_awaiting t (w.evalDraft site draft).2 derived
    exact congrArg (fun l => ({ (w.evalDraft site draft).1 with loader := l }, _)) defined
  | modify id body => exact congrArg (fun done => (done.1, done.2 ++ _)) (w.modify_awaiting t id body)
  | keep ref into =>
    unfold act
    dsimp only
    rw [find]
    cases w.find? site ref <;> rfl
  | setExports ref value =>
    unfold act
    dsimp only
    rw [find]
    cases w.find? site ref <;> rfl
  | complete resource =>
    have taken := w.takeQueued?_awaiting t resource
    unfold act
    dsimp only
    rw [taken, completeTaken_awaiting]
  | completeNext =>
    unfold act
    dsimp only
    rw [takeNext?_awaiting, completeTaken_awaiting]
  | completeAll =>
    have asked : (w.awaiting t).fetcher = w.fetcher := rfl
    unfold act
    dsimp only
    rw [asked]
    split <;> rfl
  | token index action => exact w.actOnToken_awaiting t site index action
  | report severity message detail =>
    exact congrArg (fun l => ({ w with loader := l }, _)) (w.loader.emit_awaiting t _)
  | _ => rfl

theorem runScript_awaiting (site : Site) (actions : Script) :
    (w.awaiting t).runScript site actions = Elsewhere t (w.runScript site actions) := by
  cases actions with
  | nil => rfl
  | cons action rest =>
    unfold runScript
    dsimp only
    rw [act_awaiting]
    obtain ⟨w, frames⟩ := w.act site action
    dsimp only
    split <;> rfl

theorem conclude_awaiting (site : Site) (conclusion : Conclusion) :
    (w.awaiting t).conclude site conclusion = (w.conclude site conclusion).awaiting t := by
  cases conclusion with
  | got into | compiled into =>
    have stored := w.store_awaiting t into (w.answer.getD .null)
    have answer : (w.awaiting t).answer = w.answer := rfl
    unfold conclude
    dsimp only
    rw [answer, stored]
    rfl
  | reply => rfl

theorem bindArguments_awaiting (interfaces : List (Option Value)) :
    (w.awaiting t).bindArguments interfaces = (w.bindArguments interfaces).awaiting t := by
  unfold bindArguments
  induction interfaces.zipIdx generalizing w with
  | nil => rfl
  | cons found rest ih =>
    rw [List.foldl_cons, List.foldl_cons, ← ih]
    exact congrArg (List.foldl _ · rest) (w.store_awaiting t _ _)

theorem callBack_awaiting (callback : Callback) (interfaces : List (Option Value)) :
    (w.awaiting t).callBack callback interfaces = Elsewhere t (w.callBack callback interfaces) :=
  congrArg (·, _) (bindArguments_awaiting (w.write callback.place "callback" _) t interfaces)

theorem compile_awaiting (r : RecordId) : (w.awaiting t).compile r = Elsewhere t (w.compile r) := by
  have status : (w.awaiting t).loader.status r = w.loader.status r := rfl
  have can : (w.awaiting t).loader.canCompile r = w.loader.canCompile r := rfl
  unfold compile
  rw [status, can]
  dsimp only
  split
  · rfl
  · rfl
  · split
    · have begun : (w.awaiting t).loader.beginCompile r ((w.awaiting t).memory.newObject ∅).2 =
          (w.loader.beginCompile r (w.memory.newObject ∅).2).awaiting t := rfl
      rw [begun, Loader.record_awaiting]
      split <;> rfl
    · rfl

theorem enterBody_awaiting (r : RecordId) (role : String) (body : Script) :
    (w.awaiting t).enterBody r role body = Elsewhere t (w.enterBody r role body) := by
  have record : (w.awaiting t).loader.record r = w.loader.record r := rfl
  unfold enterBody
  rw [record]
  dsimp only
  cases (w.loader.record r).exports <;> rfl

theorem finishFetch_awaiting (token : FetchToken) :
    (w.awaiting t).finishFetch token = Elsewhere t (w.finishFetch token) := by
  have finished : (w.awaiting t).loader.finishFetch token = _ := w.loader.finishFetch_awaiting t token
  unfold finishFetch
  rw [finished]
  rfl

end World

/-- Frames that begin a load or count an entry at the point where it comes together with others. -/
def Frame.meets : Frame → Bool
  | .load .. | .settled .. | .resume (.arrive ..) => true
  | _ => false

/-- Whatever else a frame does is the same whatever waits for loads. -/
theorem Frame.exec_awaiting (w : World) (t : Table Barrier) {frame : Frame} (other : frame.meets = false) :
    frame.exec (w.awaiting t) = World.Elsewhere t (frame.exec w) := by
  cases frame with
  | script site actions => exact w.runScript_awaiting t site actions
  | conclude site conclusion => exact congrArg (·, _) (w.conclude_awaiting t site conclusion)
  | load | settled => cases other
  | entries locators b =>
    cases locators with
    | nil => rfl
    | cons k rest => exact congrArg (fun done => (done.1, done.2 ++ _)) (w.enter_awaiting t k b)
  | resume next =>
    cases next with
    | arrive => cases other
    | call callback => exact w.callBack_awaiting t callback []
    | _ => rfl
  | preload next =>
    have queued : (w.awaiting t).loader.preloads = w.loader.preloads := rfl
    unfold exec World.preload
    dsimp only
    rw [queued]
    cases w.loader.preloads <;> rfl
  | gather locators interfaces receiver =>
    cases locators with
    | nil => rfl
    | cons k rest =>
      have entry : Loader.entry? (w.awaiting t).loader = w.loader.entry? := rfl
      unfold exec World.gather
      dsimp only
      rw [entry]
      cases k.bind w.loader.entry? <;> rfl
  | deliver receiver interfaces =>
    cases receiver with
    | host callback => exact w.callBack_awaiting t callback interfaces
    | discard => rfl
  | retrieved token => exact w.finishFetch_awaiting t token
  | compile r => exact w.compile_awaiting t r
  | runFactory r body => exact w.enterBody_awaiting t r "factory" body
  | runPatch r patch => exact w.enterBody_awaiting t r "patch" patch.body
  | replaceInterface r =>
    have answer : (w.awaiting t).answer = w.answer := rfl
    unfold exec
    rw [answer]
    cases w.answer <;> rfl
  | completeRest site done =>
    unfold exec
    rw [World.takeNext?_awaiting]
    cases w.takeNext? with
    | none => rfl
    | some taken => exact congrArg (·, _) (taken.1.evaluate_awaiting t taken.2.resource)
  | _ => rfl

end ModuleLoader
