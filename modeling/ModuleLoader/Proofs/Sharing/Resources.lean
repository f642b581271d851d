import ModuleLoader.Proofs.Coherence
import ModuleLoader.Proofs.Effects.Deeds
import ModuleLoader.Proofs.Effects.Settling

/-! Locators that have one resource. As long as it is under way each of them has a record of its own, and
waits; when it is at hand they stand for the record of the locator that it was retrieved for. Two ways lead
there, for those who joined the retrieval and for those who come later. -/
namespace ModuleLoader.Loader

/-- Locators agree with their resources; `holds` says which resources have a module. -/
structure Pools (holds : PhysicalId → Prop) (l : Loader) : Prop where
  unpatched : ∀ key, l.patches.get? key = none
  /-- No record passes from one resource to another. -/
  home : ∀ {k r}, l.entry? k = some r →
    l.resolver.physicalId (l.record r).locator = l.resolver.physicalId k
  /-- A resource at hand is at hand with the locator that it was retrieved for. -/
  first : ∀ {p k}, l.ledger.completed.get? p = some k → l.resolver.physicalId k = p ∧
    ∃ r, l.entry? k = some r ∧ (l.record r).locator = k ∧ .fetched ≤ l.status r ∧
      (holds p → .saved ≤ l.status r)
  /-- Whoever has been answered stands for the same record as that locator. -/
  landed : ∀ {k r}, l.entry? k = some r → .fetched ≤ l.status r →
    ∃ first, l.ledger.completed.get? (l.resolver.physicalId k) = some first ∧
      (holds (l.resolver.physicalId k) → l.entry? first = some r)
  /-- Nothing else has been saved for the resource. -/
  saved : ∀ {r}, .saved ≤ l.status r →
    ∃ first, l.ledger.completed.get? (l.resolver.physicalId (l.record r).locator) = some first ∧
      l.entry? first = some r

theorem Shifts.locator {l l' : Loader} (shifts : Shifts l l') {r : RecordId}
    (known : l.status r ≠ .unknown) : (l'.record r).locator = (l.record r).locator := by
  have steps := shifts.records r
  generalize l'.record r = after at *
  suffices both : after.locator = (l.record r).locator ∧ after.status ≠ .unknown from both.1
  induction steps with
  | refl => exact ⟨rfl, known⟩
  | tail _ change ih =>
    refine ⟨?_, Status.ne_unknown_of_le ih.2 change.rises⟩
    cases change with
    | made => cases ih.2 rfl
    | _ => exact ih.1

namespace Pools

variable {holds : PhysicalId → Prop} {l l' : Loader}

theorem fresh (config : Config) (resolver : Resolver) (sink : Sink) :
    Pools holds (.new config resolver sink) := by
  refine ⟨fun _ => rfl, fun held => ?_, fun completed => ?_, fun held => ?_, fun saved => ?_⟩
  · cases held
  · cases completed
  · cases held
  · cases Nat.not_succ_le_zero _ saved

theorem saved_of_canCompile (pools : Pools holds l) {r : RecordId} (can : l.canCompile r = true) :
    .saved ≤ l.status r := by
  rw [canCompile, Bool.or_eq_true, decide_eq_true_eq] at can
  refine can.resolve_right fun patched => ?_
  obtain ⟨key, -, waits⟩ := List.any_eq_true.mp patched
  rw [OrderedMap.contains, pools.unpatched key] at waits
  cases waits

/-- The registry and what is at hand stay, and nothing is saved anew. -/
theorem carried (pools : Pools holds l) (unpatched : ∀ key, l'.patches.get? key = none)
    (resolver : l'.resolver = l.resolver)
    (completed : ∀ p, l'.ledger.completed.get? p = l.ledger.completed.get? p)
    (entry : ∀ k, l'.entry? k = l.entry? k)
    (locator : ∀ r, (l'.record r).locator = (l.record r).locator)
    (rises : ∀ r, l.status r ≤ l'.status r)
    (moved : ∀ r, l'.status r = l.status r ∨ .saved ≤ l.status r) : Pools holds l' := by
  have reached {s : Status} (below : s ≤ .saved) {r : RecordId} (reached : s ≤ l'.status r) :
      s ≤ l.status r := by
    obtain same | saved := moved r
    · exact same ▸ reached
    · exact Status.le_trans below saved
  refine ⟨unpatched, fun {k r} held => ?_, fun {p k} done => ?_, fun {k r} held fetched => ?_,
    fun {r} saved => ?_⟩
  · rw [resolver, locator]
    rw [entry] at held
    exact pools.home held
  · rw [completed] at done
    obtain ⟨same, r, held, own, fetched, saved⟩ := pools.first done
    refine ⟨resolver ▸ same, r, (entry k).trans held, (locator r).trans own,
      Status.le_trans fetched (rises r), fun there => Status.le_trans (saved there) (rises r)⟩
  · rw [entry] at held
    obtain ⟨first, done, there⟩ := pools.landed held (reached (by decide) fetched)
    refine ⟨first, ?_, fun holding => ?_⟩
    · rw [completed, resolver]
      exact done
    · rw [resolver] at holding
      exact (entry first).trans (there holding)
  · obtain ⟨first, done, held⟩ := pools.saved (reached (Status.le_refl _) saved)
    refine ⟨first, ?_, (entry first).trans held⟩
    rw [completed, resolver, locator]
    exact done

/-- Only modules that are saved move on while no retrieval is begun or ended. -/
theorem stays (pools : Pools holds l) (stays : Stays l l') : Pools holds l' := by
  refine pools.carried (fun key => ?_) stays.resolver (fun p => ?_) stays.toRests.entry
    stays.toRests.locator stays.rises fun r => ?_
  · rw [stays.patches]
    exact pools.unpatched key
  · rw [stays.ledger]
  · exact (stays.moved r).imp id pools.saved_of_canCompile

/-! Somebody asks for a resource. -/

/-- A record is made for a locator that waits for its resource. -/
theorem added (pools : Pools holds l) (sound : Sound l) {locator : Locator} (adds : Adds l locator l')
    (absent : l.entry? locator = none) (fetching : l'.status ⟨l.records.size⟩ = .fetching)
    (patches : l'.patches = l.patches) (resolver : l'.resolver = l.resolver)
    (ledger : l'.ledger = l.ledger) : Pools holds l' := by
  have known {r : RecordId} (known : l.status r ≠ .unknown) : l'.record r = l.record r :=
    adds.others r (Renames.not_new (index_lt_of_known known))
  have kept {k : Locator} {r : RecordId} (held : l.entry? k = some r) : l'.entry? k = some r := by
    rw [adds.entry, if_neg]
    · exact held
    · rintro rfl
      cases absent.symm.trans held
  refine ⟨fun key => ?_, fun {k r} held => ?_, fun {p k} done => ?_, fun {k r} held fetched => ?_,
    fun {r} saved => ?_⟩
  · rw [patches]
    exact pools.unpatched key
  · rw [resolver]
    rw [adds.entry] at held
    split at held
    · rename_i here
      cases held
      rw [adds.own, here]
    · rw [known (sound.known held)]
      exact pools.home held
  · rw [ledger] at done
    obtain ⟨same, r, held, own, fetched, saved⟩ := pools.first done
    have record := known (sound.known held)
    refine ⟨resolver ▸ same, r, kept held, record ▸ own, ?_, ?_⟩
    · rw [status, record]
      exact fetched
    · rw [status, record]
      exact saved
  · rw [adds.entry] at held
    split at held
    · cases held
      rw [fetching] at fetched
      exact absurd fetched (by decide)
    · rw [status, known (sound.known held)] at fetched
      obtain ⟨first, done, there⟩ := pools.landed held fetched
      rw [resolver, ledger]
      exact ⟨first, done, fun holding => kept (there holding)⟩
  · by_cases new : r = ⟨l.records.size⟩
    · rw [new, fetching] at saved
      exact absurd saved (by decide)
    · rw [status, adds.others r new] at saved
      obtain ⟨first, done, held⟩ := pools.saved saved
      rw [resolver, ledger, adds.others r new]
      exact ⟨first, done, kept held⟩

/-- A locator comes to stand for the record by which its resource is at hand. -/
theorem given (pools : Pools holds l) {locator first : Locator} {r : RecordId}
    (gives : Gives l locator r l')
    (completed : l.ledger.completed.get? (l.resolver.physicalId locator) = some first)
    (source : l.entry? first = some r)
    (early : ∀ x, l.entry? locator = some x → ¬ .fetched ≤ l.status x)
    (patches : l'.patches = l.patches) (resolver : l'.resolver = l.resolver)
    (ledger : l'.ledger = l.ledger) : Pools holds l' := by
  have kept {p : PhysicalId} {k : Locator} (done : l.ledger.completed.get? p = some k) :
      l'.entry? k = l.entry? k := by
    rw [gives.entry, if_neg]
    rintro rfl
    obtain ⟨-, x, held, -, fetched, -⟩ := pools.first done
    exact early x held fetched
  refine ⟨fun key => ?_, fun {k x} held => ?_, fun {p k} done => ?_, fun {k x} held fetched => ?_,
    fun {x} saved => ?_⟩
  · rw [patches]
    exact pools.unpatched key
  · rw [resolver, gives.own]
    rw [gives.entry] at held
    split at held
    · rename_i here
      cases held
      rw [pools.home source, (pools.first completed).1, here]
    · exact pools.home held
  · rw [ledger] at done
    obtain ⟨same, x, held, own, fetched, saved⟩ := pools.first done
    refine ⟨resolver ▸ same, x, (kept done).trans held, (gives.own x).trans own, ?_, ?_⟩
    · rw [gives.status]
      exact fetched
    · rw [gives.status]
      exact saved
  · rw [resolver, ledger]
    rw [gives.entry] at held
    rw [gives.status] at fetched
    split at held
    · rename_i here
      cases held
      rw [← here]
      exact ⟨first, completed, fun _ => (kept completed).trans source⟩
    · obtain ⟨first, done, there⟩ := pools.landed held fetched
      exact ⟨first, done, fun holding => (kept done).trans (there holding)⟩
  · rw [gives.status] at saved
    obtain ⟨first, done, held⟩ := pools.saved saved
    rw [resolver, ledger, gives.own]
    exact ⟨first, done, (kept done).trans held⟩

theorem share (pools : Pools holds l) {locator first : Locator} {r : RecordId}
    (completed : l.ledger.completed.get? (l.resolver.physicalId locator) = some first)
    (source : l.entry? first = some r)
    (early : ∀ x, l.entry? locator = some x → ¬ .fetched ≤ l.status x) :
    Pools holds (l.share locator r) := by
  have quiet := (l.share_edits locator r).quiet id
  obtain same | ⟨-, gives⟩ := l.share_gives locator r
  · rw [same]
    exact pools
  · exact pools.given gives completed source early (l.share_patches locator r) quiet.resolver quiet.ledger

theorem ensure (pools : Pools holds l) (sound : Sound l) (locator : Locator) :
    Pools holds (l.ensure locator .fetching).1 := by
  obtain ⟨r, -, same⟩ | ⟨absent, same⟩ := l.ensure_cases locator .fetching
  · rw [same]
    exact pools
  · rw [same]
    refine pools.added sound (l.made_adds locator (by decide)) absent ?_ rfl rfl rfl
    rw [status, l.record_made, if_pos rfl]

/-- Where a resource is at hand, nobody has to wait for it. -/
theorem not_completed (pools : Pools holds l) {locator : Locator} {r : RecordId}
    (held : l.entry? locator = some r) (fetching : l.status r = .fetching)
    (missing : l.retrieved? (l.resolver.physicalId locator) locator = none) :
    l.ledger.completed.get? (l.resolver.physicalId locator) = none := by
  cases completed : l.ledger.completed.get? (l.resolver.physicalId locator) with
  | none => rfl
  | some first =>
    obtain ⟨-, x, source, -, fetched, -⟩ := pools.first completed
    have other : r ≠ x := by
      rintro rfl
      exact Status.ne_fetching (by decide) fetched fetching
    have found : l.retrieved? (l.resolver.physicalId locator) locator = some x := by
      simp [retrieved?, completed, source, fetched, held, other]
    cases missing.symm.trans found

theorem awaitResource (pools : Pools holds l) (waiter : Waiter) {r : RecordId}
    (held : l.entry? waiter.locator = some r) (fetching : l.status r = .fetching) :
    Pools holds (l.awaitResource waiter).1 := by
  unfold Loader.awaitResource
  dsimp only
  split
  · rename_i known retrieved
    obtain ⟨first, completed, source, -⟩ := retrieved?_held retrieved
    refine pools.share completed source fun x there => ?_
    cases held.symm.trans there
    rw [fetching]
    decide
  · rename_i missing
    have absent := pools.not_completed held fetching missing
    have same (p : PhysicalId) :
        (l.ledger.completed.erase (l.resolver.physicalId waiter.locator)).get? p =
          l.ledger.completed.get? p := by
      rw [OrderedMap.get?_erase]
      split
      · rename_i here
        rw [← here, absent]
      · rfl
    have still {l' : Loader} (patches : l'.patches = l.patches) (resolver : l'.resolver = l.resolver)
        (completed : l'.ledger.completed =
          l.ledger.completed.erase (l.resolver.physicalId waiter.locator))
        (registry : l'.registry = l.registry) (records : l'.records = l.records) : Pools holds l' := by
      have rests := Rests.of_same registry records
      refine pools.carried (fun key => ?_) resolver (fun p => ?_) rests.entry rests.locator rests.rises
        fun r => .inl ?_
      · rw [patches]
        exact pools.unpatched key
      · rw [completed]
        exact same p
      · rw [status, status, record, record, records]
    split <;> exact still rfl rfl rfl rfl rfl

end Pools

/-! A retrieval is answered, and over. -/

/-- A module without a name waits to be named. -/
theorem foldl_define_unnamed {l : Loader} (empty : l.anonymous = none) {rs : List Registration}
    (unnamed : rs = [] ∨ ∃ registration, rs = [registration] ∧ registration.id = none) :
    rs.foldl define l = { l with anonymous := rs.head?.map Registration.definition } := by
  obtain rfl | ⟨registration, rfl, unnamed⟩ := unnamed
  · rw [List.head?_nil, Option.map_none, ← empty]
    rfl
  · have nothing : l.named? registration = none := by rw [named?, unnamed, Option.bind_none]
    rw [List.foldl_cons, List.foldl_nil, define_unnamed nothing, park, empty]
    rfl

/-- So it does when the resource of a queued retrieval is read. -/
theorem evaluate_unnamed {w taken : World} {p : PhysicalId} (empty : w.loader.anonymous = none)
    (loader : taken.loader = w.loader) (files : taken.fetcher.files = w.fetcher.files)
    (unnamed : w.fetcher.registrations p = [] ∨
      ∃ registration, w.fetcher.registrations p = [registration] ∧ registration.id = none) :
    (taken.evaluate p).loader =
      { w.loader with anonymous := (w.fetcher.registrations p).head?.map Registration.definition } := by
  rw [World.evaluate, loader, Fetcher.registrations_of_files files]
  exact foldl_define_unnamed empty unnamed

theorem Pools.parked {holds : PhysicalId → Prop} {l : Loader} (pools : Pools holds l)
    (definition : Option Definition) : Pools holds { l with anonymous := definition } :=
  ⟨pools.unpatched, pools.home, pools.first, pools.landed, pools.saved⟩

section

variable {l : Loader} {target : RecordId}

/-- Where a retrieval has brought nothing, those who joined it are told so. -/
theorem foldl_settleJoined_unsaved (target : RecordId) (below : ¬ .saved ≤ l.status target)
    (settled : l.status target ≠ .fetching) (joined : List Locator) :
    let l' := joined.foldl (settleJoined · target) l
    l'.registry = l.registry ∧ ∀ x, l'.status x = l.status x ∨
      l.status x = .fetching ∧ l'.status x = .fetched ∧ ∃ k ∈ joined, l.entry? k = some x := by
  induction joined generalizing l with
  | nil => exact ⟨rfl, fun x => .inl rfl⟩
  | cons locator joined ih =>
    obtain ⟨registry, first⟩ : (l.settleJoined target locator).registry = l.registry ∧
        ∀ x, (l.settleJoined target locator).status x = l.status x ∨
          l.status x = .fetching ∧ (l.settleJoined target locator).status x = .fetched ∧
            l.entry? locator = some x := by
      rw [settleJoined, if_neg below]
      split
      · rename_i r held
        refine ⟨(l.endFetching_rests r).registry, fun x => ?_⟩
        by_cases fetching : l.status r = .fetching
        · rw [status, record_endFetching fetching]
          split
          · rename_i here
            exact .inr ⟨here ▸ fetching, rfl, here ▸ held⟩
          · exact .inl rfl
        · rw [endFetching, if_neg fetching]
          exact .inl rfl
      · exact ⟨rfl, fun x => .inl rfl⟩
    have same : (l.settleJoined target locator).status target = l.status target :=
      (first target).resolve_right fun moved => settled moved.1
    obtain ⟨later, rest⟩ := ih (same ▸ below) (same ▸ settled)
    refine ⟨later.trans registry, fun x => ?_⟩
    obtain kept | ⟨fetching, fetched, k, member, held⟩ := rest x
    · obtain still | ⟨fetching, fetched, held⟩ := first x
      · exact .inl (kept.trans still)
      · exact .inr ⟨fetching, kept.trans fetched, locator, List.mem_cons_self .., held⟩
    · refine .inr ⟨?_, fetched, k, List.mem_cons_of_mem _ member, ?_⟩
      · obtain still | ⟨fetching, -⟩ := first x
        · exact still ▸ fetching
        · exact fetching
      · rw [← held, entry?, entry?, registry]

/-- Where a retrieval has brought a module, those who joined it may come to stand for it. -/
theorem foldl_settleJoined_saved (target : RecordId) (saved : .saved ≤ l.status target)
    (joined : List Locator) :
    let l' := joined.foldl (settleJoined · target) l
    (∀ k, l'.entry? k = l.entry? k ∨ k ∈ joined ∧ l'.entry? k = some target) ∧
      ∀ x, l'.status x = l.status x := by
  induction joined generalizing l with
  | nil => exact ⟨fun k => .inl rfl, fun x => rfl⟩
  | cons locator joined ih =>
    obtain ⟨entry, status⟩ : (∀ k, Loader.entry? (l.settleJoined target locator) k = l.entry? k ∨
        k = locator ∧ Loader.entry? (l.settleJoined target locator) k = some target) ∧
        ∀ x, (l.settleJoined target locator).status x = l.status x := by
      rw [settleJoined, if_pos saved]
      obtain same | ⟨-, gives⟩ := l.share_gives locator target
      · rw [same]
        exact ⟨fun k => .inl rfl, fun x => rfl⟩
      · refine ⟨fun k => ?_, gives.status⟩
        rw [gives.entry]
        split
        · rename_i here
          exact .inr ⟨here.symm, rfl⟩
        · exact .inl rfl
    obtain ⟨later, rest⟩ := ih ((status target).symm ▸ saved)
    refine ⟨fun k => ?_, fun x => (rest x).trans (status x)⟩
    obtain kept | ⟨member, held⟩ := later k
    · obtain still | ⟨rfl, held⟩ := entry k
      · exact .inl (kept.trans still)
      · exact .inr ⟨List.mem_cons_self .., kept.trans held⟩
    · exact .inr ⟨List.mem_cons_of_mem _ member, held⟩

end

/-- What the end of a retrieval comes to, where nothing was registered by name. -/
structure Lands (l : Loader) (token : FetchToken) (r : RecordId) (joined : List Locator) (l' : Loader) :
    Prop where
  own : l'.status r = if l.anonymous.isSome then .saved else .fetched
  here : l'.entry? token.locator = some r
  entry : ∀ k, l'.entry? k = l.entry? k ∨ k ∈ joined ∧ l'.entry? k = some r
  moved : ∀ x, x ≠ r → l'.status x = l.status x ∨ l.anonymous = none ∧ l.status x = .fetching ∧
    l'.status x = .fetched ∧ ∃ k ∈ joined, l.entry? k = some x

/-- The locator that a retrieval was started for gets what waits to be named. -/
theorem nameAnonymous_held {l : Loader} {locator : Locator} {r : RecordId}
    (held : l.entry? locator = some r) (fetched : l.status r = .fetched) :
    (∀ k, Loader.entry? (l.nameAnonymous locator) k = l.entry? k) ∧
      (l.nameAnonymous locator).status r = (if l.anonymous.isSome then .saved else .fetched) ∧
      ∀ x, x ≠ r → (l.nameAnonymous locator).status x = l.status x := by
  refine ⟨nameAnonymous_entry held, ?_⟩
  have inside := index_lt_of_known (l := l) (r := r) (by rw [fetched]; decide)
  unfold nameAnonymous
  split
  · rename_i definition waits
    have below : ¬ .saved ≤ Loader.status { l with anonymous := none } r := by
      change ¬ .saved ≤ l.status r
      rw [fetched]
      decide
    have record (x : RecordId) := record_updateRecord_inside (l := { l with anonymous := none }) inside
      (·.save definition (Loader.resolveDependencies { l with anonymous := none } locator
        definition.dependencies)) x
    rw [save_held (l := { l with anonymous := none }) held below, waits]
    refine ⟨?_, fun x other => ?_⟩
    · rw [status, record, if_pos rfl]
      rfl
    · rw [status, record, if_neg other]
      rfl
  · rename_i nothing
    rw [nothing]
    exact ⟨fetched, fun x _ => rfl⟩

theorem finishFetch_lands {l : Loader} {token : FetchToken} {r : RecordId}
    (held : l.entry? token.locator = some r) (fetching : l.status r = .fetching)
    (unnamed : l.firstNamed = none) :
    Lands l token r ((l.finishFetch token).2.map Waiter.locator) (l.finishFetch token).1 := by
  let closed := (l.note (.fetched token.locator token.resource)).closeRetrieval token
  have ended := record_endFetching (l := closed) fetching
  have slots : (closed.endFetching r).anonymous = l.anonymous ∧
      (closed.endFetching r).firstNamed = none := by
    have mute := closed.endFetching_mute r
    exact ⟨mute.anonymous, mute.firstNamed.trans unnamed⟩
  have entry (k : Locator) : Loader.entry? (closed.endFetching r) k = l.entry? k :=
    (closed.endFetching_rests r).entry k
  obtain ⟨still, own, others⟩ := nameAnonymous_held ((entry _).trans held)
    (show (closed.endFetching r).status r = .fetched by rw [status, ended, if_pos rfl])
  rw [slots.1] at own
  have empty : ((closed.endFetching r).nameAnonymous token.locator).firstNamed = none :=
    (nameAnonymous_empties _ token.locator).2.2.trans slots.2
  generalize named : (closed.endFetching r).nameAnonymous token.locator = base at *
  have untaken : base.takeFirstNamed token.locator r = base := by rw [takeFirstNamed, empty]
  have found : base.entry? token.locator = some r := (still _).trans ((entry _).trans held)
  have settled : (l.finishFetch token).1 =
      (((l.finishFetch token).2.map Waiter.locator).filter (· ≠ token.locator)).foldl
        (settleJoined · r) base := by
    have settled := settle_held (l := closed) held
      (by rw [named, untaken]; exact found) (l.finishFetch token).2
    rw [named, untaken] at settled
    exact settled
  have before (x : RecordId) (other : x ≠ r) : base.status x = l.status x := by
    rw [others x other, status, ended, if_neg other]
    rfl
  have here := foldl_settleJoined_entry found
    (((l.finishFetch token).2.map Waiter.locator).filter (· ≠ token.locator))
  rw [settled]
  cases anonymous : l.anonymous with
  | some definition =>
    rw [anonymous] at own
    obtain ⟨entries, statuses⟩ := foldl_settleJoined_saved (l := base) r
      (by rw [own]; exact Status.le_refl _)
      (((l.finishFetch token).2.map Waiter.locator).filter (· ≠ token.locator))
    refine ⟨?_, here, fun k => ?_, fun x other => .inl ((statuses x).trans (before x other))⟩
    · rw [statuses, own, anonymous]
    · refine (entries k).imp (fun same => same.trans ((still k).trans (entry k))) fun there => ?_
      exact ⟨(List.mem_filter.mp there.1).1, there.2⟩
  | none =>
    rw [anonymous] at own
    obtain ⟨registry, statuses⟩ := foldl_settleJoined_unsaved (l := base) r
      (by rw [own]; decide) (by rw [own]; decide)
      (((l.finishFetch token).2.map Waiter.locator).filter (· ≠ token.locator))
    refine ⟨?_, here, fun k => .inl ?_, fun x other => ?_⟩
    · rw [anonymous]
      refine ((statuses r).resolve_right fun moved => ?_).trans own
      cases own.symm.trans moved.1
    · exact (congrArg (OrderedMap.get? · k) registry).trans ((still k).trans (entry k))
    · obtain same | ⟨waits, told, k, member, there⟩ := statuses x
      · exact .inl (same.trans (before x other))
      · refine .inr ⟨anonymous, (before x other).symm.trans waits, told, k,
          (List.mem_filter.mp member).1, ?_⟩
        exact ((still k).trans (entry k)).symm.trans there

/-- A retrieval comes to its end that a registered locator has been waiting for. -/
structure Ending (l : Loader) (token : FetchToken) (r : RecordId) : Prop where
  home : l.resolver.physicalId token.locator = token.resource
  flying : (l.ledger.inFlight.get? token.resource).isSome = true
  held : l.entry? token.locator = some r
  own : (l.record r).locator = token.locator
  fetching : l.status r = .fetching
  unnamed : l.firstNamed = none

/-- What has the resource may stand for its record, and nothing happens to what has another one. -/
structure Concludes (l : Loader) (token : FetchToken) (r : RecordId) (l' : Loader) : Prop where
  patches : l'.patches = l.patches
  resolver : l'.resolver = l.resolver
  completed : ∀ p, l'.ledger.completed.get? p =
    if token.resource = p then some token.locator else l.ledger.completed.get? p
  locator : ∀ {x}, l.status x ≠ .unknown → (l'.record x).locator = (l.record x).locator
  rises : ∀ x, l.status x ≤ l'.status x
  here : l'.entry? token.locator = some r
  own : l'.status r = if l.anonymous.isSome then .saved else .fetched
  kept : ∀ {k}, token.resource ≠ l.resolver.physicalId k → l'.entry? k = l.entry? k
  shared : ∀ k, l'.entry? k = l.entry? k ∨ l'.entry? k = some r
  steady : ∀ {x}, token.resource ≠ l.resolver.physicalId (l.record x).locator →
    l'.status x = l.status x
  moved : ∀ {x}, x ≠ r → l'.status x = l.status x ∨ l.anonymous = none ∧ l'.status x = .fetched

section

variable {holds : PhysicalId → Prop} {l : Loader} {token : FetchToken} {r : RecordId}

/-- Who waits for a resource that is under way has a record of its own. -/
theorem Pools.ending (pools : Pools holds l) (sound : Sound l) (solitary : l.Solitary)
    (coherent : l.Coherent) (home : l.resolver.physicalId token.locator = token.resource)
    (flying : (l.ledger.inFlight.get? token.resource).isSome = true)
    (held : l.entry? token.locator = some r) (unnamed : l.firstNamed = none) : Ending l token r := by
  obtain ⟨waiters, waited⟩ := Option.isSome_iff_exists.mp flying
  have early : ¬ .fetched ≤ l.status r := fun fetched => by
    obtain ⟨first, done, -⟩ := pools.landed held fetched
    rw [home, coherent.apart waited] at done
    cases done
  have fetching : l.status r = .fetching := by
    have known := sound.known held
    revert known early
    cases l.status r <;> simp [Status.le_iff, Status.code]
  exact ⟨home, flying, held, solitary _ r held fetching, fetching, unnamed⟩

theorem Pools.concludes (pools : Pools holds l) (sound : Sound l) (coherent : l.Coherent)
    (ending : Ending l token r) : Concludes l token r (l.finishFetch token).1 := by
  have lands := finishFetch_lands ending.held ending.fetching ending.unnamed
  have shifts := (finishFetch_loads sound token).toShifts
  have quiet := l.finishFetch_quiet token
  obtain ⟨waiters, flying⟩ := Option.isSome_iff_exists.mp ending.flying
  have joined {k : Locator} (member : k ∈ (l.finishFetch token).2.map Waiter.locator) :
      l.resolver.physicalId k = token.resource := by
    obtain ⟨waiter, waited, rfl⟩ := List.mem_map.mp member
    have waited : waiter ∈ (l.ledger.inFlight.get? token.resource).getD [] := waited
    rw [flying] at waited
    exact (coherent.waited flying).2 waiter waited
  refine {
    patches := (finishFetch_becomes sound token).patches
    resolver := quiet.resolver
    completed := fun p => ?_
    locator := shifts.locator
    rises := shifts.rises
    here := lands.here
    own := lands.own
    kept := fun apart => ?_
    shared := fun k => (lands.entry k).imp id And.right
    steady := fun apart => ?_
    moved := fun {x} other => (lands.moved x other).imp id fun told => ⟨told.1, told.2.2.1⟩ }
  · rw [quiet.ledger]
    exact OrderedMap.get?_insert ..
  · exact (lands.entry _).resolve_right fun there => apart (joined there.1).symm
  · refine (lands.moved _ ?_).resolve_right ?_
    · rintro rfl
      exact apart (by rw [ending.own, ending.home])
    · rintro ⟨-, -, -, k, member, there⟩
      exact apart ((pools.home there).trans (joined member)).symm

/-- When a retrieval is over, its resource is at hand with the locator that it was started for. -/
theorem Pools.finished (pools : Pools holds l) (sound : Sound l) (coherent : l.Coherent)
    (ending : Ending l token r) (brought : holds token.resource → l.anonymous.isSome = true) :
    Pools holds (l.finishFetch token).1 := by
  have concludes := pools.concludes sound coherent ending
  generalize (l.finishFetch token).1 = l' at *
  have other {p : PhysicalId} {k : Locator} (done : l.ledger.completed.get? p = some k) :
      token.resource ≠ p := by
    rintro rfl
    obtain ⟨waiters, flying⟩ := Option.isSome_iff_exists.mp ending.flying
    cases (coherent.apart flying).symm.trans done
  have locator : (l'.record r).locator = token.locator :=
    (concludes.locator (sound.known ending.held)).trans ending.own
  have still {p : PhysicalId} {k : Locator} (done : l.ledger.completed.get? p = some k) :
      l'.ledger.completed.get? p = some k ∧ l'.entry? k = l.entry? k := by
    refine ⟨(concludes.completed p).trans ((if_neg (other done)).trans done), concludes.kept ?_⟩
    rw [(pools.first done).1]
    exact other done
  refine ⟨fun key => ?_, fun {k x} there => ?_, fun {p k} done => ?_, fun {k x} there reached => ?_,
    fun {x} saved => ?_⟩
  · rw [concludes.patches]
    exact pools.unpatched key
  · rw [concludes.resolver]
    by_cases here : token.resource = l.resolver.physicalId k
    · obtain same | shared := concludes.shared k
      · have before := same.symm.trans there
        rw [concludes.locator (sound.known before)]
        exact pools.home before
      · cases there.symm.trans shared
        rw [locator, ending.home, here]
    · have before := (concludes.kept here).symm.trans there
      rw [concludes.locator (sound.known before)]
      exact pools.home before
  · rw [concludes.resolver]
    by_cases here : token.resource = p
    · subst here
      cases done.symm.trans ((concludes.completed _).trans (if_pos rfl))
      refine ⟨ending.home, r, concludes.here, locator, ?_, fun holding => ?_⟩
      · rw [concludes.own]
        split <;> decide
      · rw [concludes.own, if_pos (brought holding)]
        exact Status.le_refl _
    · rw [concludes.completed, if_neg here] at done
      obtain ⟨same, x, before, own, fetched, saved⟩ := pools.first done
      refine ⟨same, x, (still done).2.trans before, ?_, ?_, fun holding => ?_⟩
      · exact (concludes.locator (sound.known before)).trans own
      · exact Status.le_trans fetched (concludes.rises x)
      · exact Status.le_trans (saved holding) (concludes.rises x)
  · rw [concludes.resolver]
    by_cases here : token.resource = l.resolver.physicalId k
    · refine ⟨token.locator, (concludes.completed _).trans (if_pos here), fun holding => ?_⟩
      -- Where there is a module, nobody but those who share it has been answered.
      suffices own : x = r from own ▸ concludes.here
      by_contra apart
      have before : l.entry? k = some x := by
        obtain same | shared := concludes.shared k
        · exact same.symm.trans there
        · exact absurd (Option.some.inj (there.symm.trans shared)) apart
      obtain same | ⟨nothing, -⟩ := concludes.moved apart
      · obtain ⟨first, done, -⟩ := pools.landed before (same ▸ reached)
        exact other done here
      · have waits := brought (here ▸ holding)
        rw [nothing] at waits
        cases waits
    · have before := (concludes.kept here).symm.trans there
      have same := concludes.steady (by rw [pools.home before]; exact here)
      obtain ⟨first, done, source⟩ := pools.landed before (same ▸ reached)
      exact ⟨first, (still done).1, fun holding => (still done).2.trans (source holding)⟩
  · rw [concludes.resolver]
    by_cases own : x = r
    · rw [own, locator, ending.home]
      exact ⟨token.locator, (concludes.completed _).trans (if_pos rfl), concludes.here⟩
    · obtain same | ⟨-, told⟩ := concludes.moved own
      · have before : .saved ≤ l.status x := same ▸ saved
        obtain ⟨first, done, source⟩ := pools.saved before
        rw [concludes.locator (Status.ne_unknown_of_le (a := .saved) (by decide) before)]
        exact ⟨first, (still done).1, (still done).2.trans source⟩
      · rw [told] at saved
        exact absurd saved (by decide)

end

end ModuleLoader.Loader
