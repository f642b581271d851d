import ModuleLoader.Proofs.Coherence
import ModuleLoader.Proofs.Effects.Entering
import ModuleLoader.Proofs.Ending.Effort

/-! What stands as it was while nothing is used up. Modules depend on what they depended on, whatever is
asked for; and apart from asking, the registry is as it was and records at most move on. -/
namespace ModuleLoader

open Loader (Sound Rests Stays Still Leans Fetches Landed)

namespace Loader

variable {l l' : Loader}

/-! Dependencies. -/

namespace Leans

theorem refl (l : Loader) : Leans l l := fun _ => rfl

theorem trans {a b c : Loader} (ab : Leans a b) (bc : Leans b c) : Leans a c :=
  fun r => (bc r).trans (ab r)

theorem of_records (records : l'.records = l.records) : Leans l l' :=
  fun r => by rw [record, record, records]

theorem of_update (l : Loader) {r : RecordId} {f : Record → Record}
    (same : (f (l.record r)).dependencies = (l.record r).dependencies) : Leans l (l.updateRecord r f) := by
  intro x
  obtain kept | ⟨rfl, changed⟩ := l.updateRecord_cases r f x
  · rw [kept]
  · rw [changed]
    exact same

end Leans

/-- A record depends on nothing when it is made. -/
theorem newRecord_leans (l : Loader) (locator : Locator) (s : Status) : Leans l (l.newRecord locator s).1 := by
  intro x
  obtain same | ⟨nothing, made⟩ := l.newRecord_cases locator s x
  · rw [same]
  · rw [nothing, made]
    rfl

/-- What saves nothing leaves all dependencies as they are. -/
theorem Edits.leans {permit : Permit} (edits : Edits permit l l')
    (unsaved : ∀ definition, ¬ permit.saves definition) : Leans l l' := by
  refine edits.lift .refl .trans fun edit => ?_
  cases edit with
  | reported d => exact .of_records (emit_same _ d).2.1
  | made locator => exact newRecord_leans _ locator _
  | fetched => exact .trans (.of_update _ rfl) (.of_records rfl)
  | saved dependencies below may => exact absurd may (unsaved _)
  | seconded => exact .of_update _ rfl
  | _ => exact .of_records rfl

/-- Where no definition waits for a name, the end of a retrieval brings none. -/
theorem finishFetch_leans (unnamed : l.anonymous = none) (token : FetchToken) :
    Leans l (l.finishFetch token).1 :=
  (l.finishFetch_edits token).leans fun _ waits => by cases unnamed.symm.trans waits

/-! Asking. -/

/-- Whoever has to wait is only entered into the ledger. -/
theorem awaitResource_same (waiter : Waiter)
    (missing : l.retrieved? (l.resolver.physicalId waiter.locator) waiter.locator = none) :
    (l.awaitResource waiter).1.registry = l.registry ∧ (l.awaitResource waiter).1.records = l.records := by
  unfold awaitResource
  dsimp only
  rw [missing]
  dsimp only
  split <;> exact ⟨rfl, rfl⟩

/-! Records. -/

/-- The registry is as it was, and records have at most moved on. -/
structure Abides (l l' : Loader) : Prop extends Rests l l' where
  leans : Leans l l'

theorem Stays.abides (stays : Stays l l') : Abides l l' := ⟨stays.toRests, stays.dependencies⟩

theorem Abides.of_same (registry : l'.registry = l.registry) (records : l'.records = l.records) :
    Abides l l' := ⟨.of_same registry records, .of_records records⟩

/-- The stages that are still ahead of records. -/
def stages (l : Loader) : Nat := ((List.range l.records.size).map fun i => 6 - (l.status ⟨i⟩).code).sum

/-- A record has moved on, or nothing has changed that waiting depends on. -/
theorem Abides.still_or_stages (abides : Abides l l') :
    Still l l' ∧ l'.stages = l.stages ∨ l'.stages < l.stages := by
  by_cases same : ∀ r, l'.status r = l.status r
  · refine .inl ⟨⟨abides.registry, same, abides.locator, abides.leans⟩, ?_⟩
    simp only [stages, abides.size, same]
  · obtain ⟨r, other⟩ := not_forall.mp same
    have further : (l.status r).code < (l'.status r).code :=
      Nat.lt_of_le_of_ne (abides.rises r) fun codes => other (Status.code_injective codes).symm
    have known : l'.status r ≠ .unknown := by
      intro unknown
      rw [unknown] at further
      exact Nat.not_lt_zero _ further
    have inside : r.index ∈ List.range l.records.size := by
      rw [List.mem_range, ← abides.size]
      exact index_lt_of_known known
    refine .inr ?_
    rw [stages, stages, abides.size]
    refine List.sum_lt_sum _ _ (fun i _ => ?_) ⟨r.index, inside, ?_⟩
    · have rises : (l.status ⟨i⟩).code ≤ (l'.status ⟨i⟩).code := abides.rises ⟨i⟩
      omega
    · have bound : (l'.status r).code ≤ 6 := Status.le_compiled (l'.status r)
      change 6 - (l'.status r).code < 6 - (l.status r).code
      omega

end Loader

open Loader (Abides)

section

variable {w : World}

/-- A fetcher that has nothing to read leaves registry and records alone. -/
theorem World.retrieve_same {token : FetchToken}
    (silent : w.fetcher.policy.readsAtOnce = true → w.fetcher.registrations token.resource = []) :
    (w.retrieve token).1.loader.registry = w.loader.registry ∧
      (w.retrieve token).1.loader.records = w.loader.records := by
  unfold retrieve
  cases policy : w.fetcher.policy with
  | immediate =>
    have none : Fetcher.registrations (w.fetcher.logRequest ⟨token.resource, w.loader.config.charset⟩)
        token.resource = [] := silent (by rw [policy]; rfl)
    simp only [evaluate, none, List.foldl_nil, and_self]
  | derived =>
    have none : Fetcher.registrations (w.fetcher.logRequest ⟨token.resource, w.loader.config.charset⟩)
        token.resource = [] := silent (by rw [policy]; rfl)
    simp only [evaluateDerived, none, List.foldl_nil, and_self]
  | barren | queued | manual => exact ⟨rfl, rfl⟩
  | forgetful => exact ⟨(Loader.emit_same _ _).1, (Loader.emit_same _ _).2.1⟩

/-- What becomes of an entry of a load. Its locator is registered now, or its retrieval is over now; or the
entry goes on or waits without a change of the registry. -/
theorem World.enter_standing (sound : Sound w.loader) (coherent : w.loader.Coherent) {locator : Locator}
    {b : BarrierId} (silent : ∀ token, w.startedBy? locator b = some token →
      w.fetcher.policy.readsAtOnce = true → w.fetcher.registrations token.resource = []) :
    Leans w.loader (w.enter locator b).1.loader ∧
      ((w.enter locator b).1.loader.gap locator + 3 ≤ w.loader.gap locator ∨
        w.startedBy? locator b = none ∧ (w.enter locator b).1.loader.gap locator + 1 ≤ w.loader.gap locator ∨
        w.startedBy? locator b = none ∧ Abides w.loader (w.enter locator b).1.loader ∧
          (w.enter locator b).1.loader.barriers = w.loader.barriers ∧
          ((w.enter locator b).2 = [] ∨ (w.enter locator b).2 = [.settled locator b])) := by
  have enters := World.enters sound locator b
  have made := (w.loader.ensure_edits locator (s := .fetching) (by decide)).leans fun _ => id
  have asked : Leans w.loader (w.asking locator b) := made.trans ((Loader.awaitResource_edits _ _).leans fun _ => id)
  have sound' := ((w.loader.ensure_orderly locator (s := .fetching) (by decide)) sound).1
  have entry := (w.loader.entry_ensure locator locator .fetching).trans (if_pos rfl)
  obtain ⟨later, grows⟩ := (w.loader.ensure locator .fetching).1.awaitResource_orderly ⟨locator, b⟩ sound'
  obtain ⟨r', entry', -⟩ := grows.keeps entry
  generalize w.startedBy? locator b = start, w.enter locator b = entered at *
  cases held : w.loader.entry? locator with
  | none =>
    cases enters with
    | landed => exact ⟨made, .inl (Loader.gap_registered held entry)⟩
    | shared => exact ⟨asked, .inl (Loader.gap_registered held entry')⟩
    | joined => exact ⟨asked, .inl (Loader.gap_registered held entry')⟩
    | @started token fetches same grounded missing =>
      obtain ⟨registry, records⟩ := World.retrieve_same (w := { w with loader := w.asking locator b })
        (silent token rfl)
      exact ⟨asked.trans (.of_records records), .inl (Loader.gap_registered held
        ((congrArg (OrderedMap.get? · locator) registry).trans entry'))⟩
  | some r =>
    have same : (w.loader.ensure locator .fetching).1 = w.loader := by
      simp only [Loader.ensure, held]
    have fetching (fetches : (w.loader.ensure locator .fetching).1.Fetches locator) :
        w.loader.status r = .fetching := by
      obtain ⟨x, there, fetching⟩ := fetches
      rw [same] at there fetching
      cases held.symm.trans there
      exact fetching
    cases enters with
    | landed =>
      exact ⟨made, .inr (.inr ⟨rfl, .of_same (by rw [same]) (by rw [same]), by rw [same], .inr rfl⟩)⟩
    | @shared known fetches found loader =>
      have below : ¬ .fetched ≤ w.loader.status r := by
        rw [fetching fetches]
        decide
      have ended := Loader.share_ends (Loader.retrieved?_fetched found) locator
      rw [← loader] at ended
      refine ⟨asked, .inr (.inl ⟨rfl, Loader.gap_landed held below ⟨r', entry', ?_⟩⟩)⟩
      have begun : (w.asking locator b).status r' ≠ .unknown := later.known entry'
      have ended' : (w.asking locator b).status r' ≠ .fetching := fun again => ended ⟨r', entry', again⟩
      revert begun ended'
      cases (w.asking locator b).status r' <;> simp [Status.le_iff, Status.code]
    | joined fetches missing =>
      obtain ⟨registry, records⟩ := Loader.awaitResource_same ⟨locator, b⟩ missing
      have barriers := ((w.loader.ensure locator .fetching).1.awaitResource_base ⟨locator, b⟩).2.2
      rw [same] at registry records barriers
      exact ⟨asked, .inr (.inr ⟨rfl, .of_same (by rw [World.asking, same, registry])
        (by rw [World.asking, same, records]), by rw [World.asking, same, barriers], .inl rfl⟩)⟩
    | @started token fetches own grounded missing =>
      obtain ⟨waiters, flying, -⟩ := coherent.expected ⟨r, held, fetching fetches⟩
      rw [own, flying] at grounded
      cases grounded

/-- What the frame is about, so that nothing is read and no fetcher is asked, leaves the registry alone. -/
theorem Deed.abides {w' : World} {frame : Frame} {frames : List Frame} (deed : Deed w frame w' frames)
    (bears : w.loader.Bears frame.relies) (free : Scale.plain.fee w frame = 0)
    (apart : frame.fetches = false) : w.loader.Abides w'.loader := by
  cases deed with
  | aside outside stays => exact stays.abides
  | queued | patched | removed | registered | filed | handed => cases free
  | @answered _ token taken _ takes =>
    unfold World.taken? at takes
    split at takes
    · cases free
    · cases free
    · cases apart
    · cases takes
  | entered => cases apart
  | finished => cases apart
  | ended r =>
    have compiling : .compiling ≤ w.loader.status r := bears (r, .compiling) (List.mem_singleton_self _)
    exact (Stays.setStatus w.loader (Loader.canCompile_of_saved (Status.le_trans (by decide) compiling))
      (Status.le_compiled _) (by decide)).abides
  | applied key r => exact .of_same rfl rfl

end

end ModuleLoader
