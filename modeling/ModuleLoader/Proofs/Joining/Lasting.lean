import ModuleLoader.Proofs.Coherence
import ModuleLoader.Proofs.Derivation
import ModuleLoader.Proofs.Effects.Deeds
import ModuleLoader.Proofs.Effects.Entering

/-! Loads by themselves. As long as no retrieval ends and no host code runs, a locator keeps what has been
retrieved for it, and whoever asks for a resource that is at hand gets what it has brought. -/
namespace ModuleLoader

open Loader (Sound Stays)

namespace Loader

/-- A resource has been retrieved, and what it was retrieved for stands for a record that is of use. -/
def AtHand (l : Loader) (p : PhysicalId) (r : RecordId) : Prop :=
  ∃ first, l.ledger.completed.get? p = some first ∧ l.entry? first = some r ∧ .fetched ≤ l.status r

/-- What is at hand stays at hand. -/
structure Lasts (l l' : Loader) : Prop where
  resolver : l'.resolver = l.resolver
  rises : ∀ r, l.status r ≤ l'.status r
  held : ∀ {k r}, l.entry? k = some r → .fetched ≤ l.status r → l'.entry? k = some r
  atHand : ∀ {p r}, l.AtHand p r → l'.AtHand p r
  /-- A locator that comes to be registered gets what its resource has brought. -/
  shared : ∀ {k r}, l.AtHand (l.resolver.physicalId k) r → l.entry? k = none →
    l'.entry? k = none ∨ l'.entry? k = some r

namespace Lasts

variable {l l' : Loader}

theorem refl (l : Loader) : Lasts l l :=
  ⟨rfl, fun _ => Status.le_refl _, fun there _ => there, id, fun _ absent => .inl absent⟩

theorem trans {a b c : Loader} (ab : Lasts a b) (bc : Lasts b c) : Lasts a c := by
  refine ⟨bc.resolver.trans ab.resolver, fun r => Status.le_trans (ab.rises r) (bc.rises r),
    fun {k r} there fetched => ?_, bc.atHand ∘ ab.atHand, fun {k r} atHand absent => ?_⟩
  · exact bc.held (ab.held there fetched) (Status.le_trans fetched (ab.rises r))
  · have later := ab.atHand atHand
    obtain none | some := ab.shared atHand absent
    · exact bc.shared (ab.resolver ▸ later) none
    · obtain ⟨_, _, _, fetched⟩ := later
      exact .inr (bc.held some fetched)

theorem of_stays (stays : Stays l l') : Lasts l l' := by
  refine ⟨stays.resolver, stays.rises, fun there _ => (stays.entry _).trans there, ?_,
    fun _ absent => .inl ((stays.entry _).trans absent)⟩
  rintro p r ⟨first, completed, there, fetched⟩
  exact ⟨first, stays.ledger ▸ completed, (stays.entry _).trans there,
    Status.le_trans fetched (stays.rises r)⟩

end Lasts

theorem retrieved?_iff {l : Loader} {p : PhysicalId} {k : Locator} {r : RecordId} :
    l.retrieved? p k = some r ↔ l.AtHand p r ∧ l.entry? k ≠ some r := by
  refine ⟨fun found => ?_, fun ⟨⟨first, completed, there, fetched⟩, other⟩ => ?_⟩
  · obtain ⟨first, completed, there, fetched, other⟩ := retrieved?_held found
    exact ⟨⟨first, completed, there, fetched⟩, other⟩
  · simp only [retrieved?, completed, there, bind, Option.bind_some]
    exact if_pos ⟨fetched, other⟩

section

variable {l : Loader} {k : Locator} {b : BarrierId}

/-- Nothing has been retrieved for a locator that has to wait. -/
theorem ne_of_fetches (fetches : (l.ensure k .fetching).1.Fetches k) {x : Locator} {r : RecordId}
    (there : l.entry? x = some r) (fetched : .fetched ≤ l.status r) : k ≠ x := by
  rintro rfl
  obtain ⟨s, stands, waits⟩ := fetches
  obtain ⟨z, held, same⟩ | ⟨absent, -⟩ := l.ensure_cases k .fetching
  · rw [same] at stands waits
    cases there.symm.trans stands
    rw [waits] at fetched
    exact absurd fetched (by decide)
  · cases absent.symm.trans there

/-- What is at hand is there for whoever has to wait. -/
theorem AtHand.found (fetches : (l.ensure k .fetching).1.Fetches k) {p : PhysicalId} {r : RecordId}
    (atHand : l.AtHand p r) : (l.ensure k .fetching).1.retrieved? p k = some r := by
  obtain ⟨first, completed, there, fetched⟩ := atHand
  have later := Status.le_trans fetched (l.ensure_rises k .fetching r)
  refine retrieved?_iff.mpr ⟨⟨first, (l.ensure_quiet k .fetching).ledger ▸ completed, ?_, later⟩, fun here => ?_⟩
  · rw [entry_ensure, if_neg (ne_of_fetches fetches there fetched)]
    exact there
  · obtain ⟨s, stands, waits⟩ := fetches
    cases stands.symm.trans here
    rw [waits] at later
    exact absurd later (by decide)

/-- Who is given a resource that is at hand takes it from nobody. -/
theorem ensure_share_lasts {known : RecordId} (fetches : (l.ensure k .fetching).1.Fetches k)
    (found : (l.ensure k .fetching).1.retrieved? (l.resolver.physicalId k) k = some known) :
    Lasts l ((l.ensure k .fetching).1.share k known) := by
  have made := l.ensure_quiet k .fetching
  have quiet := ((l.ensure k .fetching).1.share_edits k known).quiet id
  have early {x : Locator} {y : RecordId} := ne_of_fetches fetches (x := x) (r := y)
  have free : (l.ensure k .fetching).1.isFreeFor k known = true := by
    obtain ⟨s, stands, waits⟩ := fetches
    obtain ⟨-, other⟩ := retrieved?_iff.mp found
    rw [stands, ne_eq, Option.some.injEq] at other
    simp [isFreeFor, stands, other, waits]
    decide
  have status (x : RecordId) : ((l.ensure k .fetching).1.share k known).status x =
      (l.ensure k .fetching).1.status x := congrArg Prod.snd (share_look _ k known x)
  have rises (x : RecordId) : l.status x ≤ ((l.ensure k .fetching).1.share k known).status x :=
    (status x).symm ▸ l.ensure_rises k .fetching x
  have beside {x : Locator} (apart : k ≠ x) :
      Loader.entry? ((l.ensure k .fetching).1.share k known) x = l.entry? x := by
    rw [share_entry, if_neg (apart ·.1.symm), entry_ensure, if_neg apart]
  refine ⟨quiet.resolver.trans made.resolver, rises,
    fun there fetched => (beside (early there fetched)).trans there, ?_, fun {x r} atHand absent => ?_⟩
  · rintro p r ⟨first, completed, there, fetched⟩
    refine ⟨first, ?_, (beside (early there fetched)).trans there, Status.le_trans fetched (rises r)⟩
    rw [quiet.ledger, made.ledger]
    exact completed
  · by_cases here : k = x
    · subst here
      cases found.symm.trans (atHand.found fetches)
      exact .inr ((share_entry ..).trans (if_pos ⟨rfl, free⟩))
    · exact .inl ((beside here).trans absent)

/-- Who has to wait changes the ledger alone. -/
theorem awaitResource_missing (waiter : Waiter)
    (missing : l.retrieved? (l.resolver.physicalId waiter.locator) waiter.locator = none) :
    (l.awaitResource waiter).1.registry = l.registry ∧ (l.awaitResource waiter).1.records = l.records ∧
      (l.awaitResource waiter).1.anonymous = l.anonymous ∧
      (l.awaitResource waiter).1.firstNamed = l.firstNamed ∧
      (l.awaitResource waiter).1.ledger.completed =
        l.ledger.completed.erase (l.resolver.physicalId waiter.locator) := by
  simp only [awaitResource, missing]
  split <;> exact ⟨rfl, rfl, rfl, rfl, rfl⟩

/-- Who has to wait waits for a resource that is not at hand. -/
theorem ensure_await_lasts (fetches : (l.ensure k .fetching).1.Fetches k)
    (missing : (l.ensure k .fetching).1.retrieved? (l.resolver.physicalId k) k = none) (b : BarrierId) :
    Lasts l ((l.ensure k .fetching).1.awaitResource ⟨k, b⟩).1 := by
  have made := l.ensure_quiet k .fetching
  have early {x : Locator} {r : RecordId} := ne_of_fetches fetches (x := x) (r := r)
  have other {p : PhysicalId} {r : RecordId} (atHand : l.AtHand p r) : l.resolver.physicalId k ≠ p := by
    rintro rfl
    cases missing.symm.trans (atHand.found fetches)
  obtain ⟨registry, records, -, -, completed⟩ := (l.ensure k .fetching).1.awaitResource_missing
    ⟨k, b⟩ (made.resolver ▸ missing)
  have base := (l.ensure k .fetching).1.awaitResource_base ⟨k, b⟩
  generalize ((l.ensure k .fetching).1.awaitResource ⟨k, b⟩).1 = l' at *
  have entry {x : Locator} (apart : k ≠ x) : l'.entry? x = l.entry? x :=
    (congrArg (OrderedMap.get? · x) registry).trans ((l.entry_ensure k x .fetching).trans (if_neg apart))
  have rises (x : RecordId) : l.status x ≤ l'.status x := by
    have same : l'.status x = (l.ensure k .fetching).1.status x := by rw [status, record, records]; rfl
    exact same ▸ l.ensure_rises k .fetching x
  refine ⟨base.2.1.trans made.resolver, rises, fun there fetched => (entry (early there fetched)).trans there,
    fun {p r} atHand => ?_, fun {x r} atHand absent => ?_⟩
  · have apart := other atHand
    obtain ⟨first, done, there, fetched⟩ := atHand
    refine ⟨first, ?_, (entry (early there fetched)).trans there, Status.le_trans fetched (rises r)⟩
    rw [completed, made.resolver, OrderedMap.get?_erase, if_neg apart, made.ledger]
    exact done
  · refine .inl ((entry ?_).trans absent)
    rintro rfl
    exact other atHand rfl

end

end Loader

/-- An entry of a load changes nothing about what is at hand. -/
theorem World.enter_lasts {w : World} (sound : Sound w.loader) (queued : w.fetcher.policy = .queued)
    (k : Locator) (b : BarrierId) : Loader.Lasts w.loader (w.enter k b).1.loader := by
  have enters := World.enters sound k b
  have made := w.loader.ensure_quiet k .fetching
  generalize w.startedBy? k b = starts, w.enter k b = entered at enters
  cases enters with
  | @landed r held fetched =>
    obtain ⟨s, -, same⟩ | ⟨absent, same⟩ := w.loader.ensure_cases k .fetching
    · rw [same]
      exact .refl _
    · rw [same] at held fetched
      rw [Loader.entry_point, if_pos rfl] at held
      cases held
      rw [Loader.status, Loader.record_made, if_pos rfl] at fetched
      exact absurd fetched (by decide : ¬ Status.fetched ≤ .fetching)
  | shared fetches found loader =>
    rw [made.resolver] at found
    rw [loader]
    exact Loader.ensure_share_lasts fetches found
  | joined fetches missing =>
    rw [made.resolver] at missing
    exact Loader.ensure_await_lasts fetches missing b
  | started fetches same grounded missing =>
    rw [made.resolver] at missing
    simp only [retrieve, queued]
    exact Loader.ensure_await_lasts fetches missing b

/-! Loads apart from those that were begun before. -/

/-- What goes on after a load concerns only points that are newer than the first `n`, and no host code. -/
def Continuation.Secluded (n : Nat) : Continuation → Prop
  | .arrive b _ => n ≤ b.index
  | .call callback => callback.body = []
  | .request .. | .preload .. | .gather .. => False

/-- Work on loads that come together at points newer than the first `n`. -/
def Frame.Secluded (n : Nat) : Frame → Prop
  | .script _ actions => actions = []
  | .conclude .. => True
  | .load _ next | .resume next => next.Secluded n
  | .entries _ b | .settled _ b => n ≤ b.index
  | _ => False

/-- Whatever waits at points newer than the first `n` goes on with loads alone. -/
structure Loader.Secluded (n : Nat) (l : Loader) : Prop where
  size : n ≤ l.barriers.size
  waits : ∀ {i next}, n ≤ i → (l.barriers.get i).onDone = some next → next.Secluded n

namespace Loader.Secluded

variable {n : Nat} {l l' : Loader}

theorem of_barriers (secluded : l.Secluded n) (same : l'.barriers = l.barriers) : l'.Secluded n :=
  ⟨same ▸ secluded.size, fun newer waits => secluded.waits newer (same ▸ waits)⟩

theorem push (secluded : l.Secluded n) {barrier : Barrier} (barriers : l'.barriers = l.barriers.push barrier)
    (newest : ∀ next, barrier.onDone = some next → next.Secluded n) : l'.Secluded n := by
  refine ⟨?_, fun {i next} newer waits => ?_⟩
  · rw [barriers, Table.size_push]
    exact Nat.le_succ_of_le secluded.size
  · rw [barriers, Table.get_push] at waits
    split at waits
    · exact newest next waits
    · exact secluded.waits newer waits

end Loader.Secluded

/-- What waits at a newer point goes on when the last entry has arrived. -/
theorem World.Counted.secluded {n : Nat} {w w' : World} {b : BarrierId} {frames : List Frame}
    (counted : w.Counted b w' frames) (secluded : w.loader.Secluded n) (newer : n ≤ b.index) :
    w'.loader.Secluded n ∧ ∀ f ∈ frames, f.Secluded n := by
  obtain ⟨-, barriers, rfl⟩ | ⟨-, barriers, rfl⟩ := counted
  · refine ⟨⟨?_, fun {i next} newer waits => ?_⟩, fun f member => ?_⟩
    · rw [barriers, Table.size_modify]
      exact secluded.size
    · rw [barriers, Table.get_modify] at waits
      split at waits
      · cases waits
      · exact secluded.waits newer waits
    · obtain ⟨next, waits, rfl⟩ := Option.map_eq_some_iff.mp (Option.mem_toList.mp member)
      exact secluded.waits newer waits
  · refine ⟨⟨?_, fun {i next} newer waits => ?_⟩, List.forall_mem_nil _⟩
    · rw [barriers, Table.size_modify]
      exact secluded.size
    · rw [barriers, Table.get_modify] at waits
      split at waits <;> exact secluded.waits newer waits

/-- An entry of a load waits for a retrieval that nobody ends, or it goes on at once. -/
theorem World.enter_secluded {n : Nat} {w : World} (sound : Sound w.loader)
    (queued : w.fetcher.policy = .queued) (secluded : w.loader.Secluded n) (k : Locator) {b : BarrierId}
    (newer : n ≤ b.index) :
    (w.enter k b).1.loader.Secluded n ∧ ∀ f ∈ (w.enter k b).2, f.Secluded n := by
  have enters := World.enters sound k b
  have made := (w.loader.ensure_quiet k .fetching).barriers
  have asked : (w.asking k b).barriers = w.loader.barriers :=
    (Loader.awaitResource_base _ ⟨k, b⟩).2.2.trans made
  generalize w.startedBy? k b = starts, w.enter k b = entered at enters
  cases enters with
  | landed => exact ⟨secluded.of_barriers made, List.forall_mem_singleton.mpr newer⟩
  | shared => exact ⟨secluded.of_barriers asked, List.forall_mem_singleton.mpr newer⟩
  | joined => exact ⟨secluded.of_barriers asked, List.forall_mem_nil _⟩
  | started =>
    simp only [retrieve, queued]
    exact ⟨secluded.of_barriers asked, List.forall_mem_nil _⟩

/-- Loads leave loads, and what is at hand stays at hand. -/
theorem Frame.Secluded.next {n : Nat} {w : World} {frame : Frame} (secluded : frame.Secluded n)
    (sound : Sound w.loader) (queued : w.fetcher.policy = .queued) (loads : w.loader.Secluded n) :
    (frame.exec w).1.loader.Secluded n ∧ ∀ f ∈ (frame.exec w).2, f.Secluded n := by
  have arrived (w : World) (loads : w.loader.Secluded n) {b : BarrierId} (newer : n ≤ b.index)
      (loaded : Option RecordId) :
      (w.arrive b loaded).1.loader.Secluded n ∧ ∀ f ∈ (w.arrive b loaded).2, f.Secluded n :=
    (w.arrive_counted b loaded).1.secluded loads newer
  cases frame with
  | script site actions =>
    cases secluded
    exact ⟨loads, List.forall_mem_nil _⟩
  | conclude site conclusion =>
    obtain ⟨loader, -⟩ := w.conclude_same site conclusion
    exact ⟨loads.of_barriers (congrArg Loader.barriers loader), List.forall_mem_nil _⟩
  | load locators onDone =>
    simp only [exec, World.load]
    split
    · exact ⟨loads, List.forall_mem_singleton.mpr secluded⟩
    · refine ⟨loads.push rfl fun next waits => ?_, List.forall_mem_singleton.mpr loads.size⟩
      cases waits
      exact secluded
  | entries locators b =>
    cases locators with
    | nil => exact ⟨loads, List.forall_mem_nil _⟩
    | cons k rest =>
      obtain ⟨later, frames⟩ := World.enter_secluded sound queued loads k secluded
      exact ⟨later, List.forall_mem_append.mpr ⟨frames, List.forall_mem_singleton.mpr secluded⟩⟩
  | settled k b =>
    have quiet := (w.loader.settledEntry_edits k).quiet id
    simp only [exec, World.settle]
    generalize w.loader.settledEntry k = entry at *
    obtain ⟨l, entry⟩ := entry
    have still : Loader.Secluded n l := loads.of_barriers quiet.barriers
    cases entry with
    | missing => exact arrived { w with loader := l } still secluded none
    | ready r => exact arrived { w with loader := l } still secluded (some r)
    | waits r dependencies => exact ⟨still, List.forall_mem_singleton.mpr secluded⟩
  | resume next =>
    cases next with
    | arrive b r => exact arrived w loads secluded (some r)
    | call callback =>
      obtain ⟨loader, -⟩ := World.bindArguments_same
        (w.write callback.place "callback" (some (.many (([] : List (Option Value)).map w.displayOption)))) []
      exact ⟨loads.of_barriers (congrArg Loader.barriers loader), List.forall_mem_singleton.mpr secluded⟩
    | request | preload | gather => cases secluded
  | _ => cases secluded

theorem Frame.Secluded.lasts {n : Nat} {w w' : World} {frame : Frame} {frames : List Frame}
    (secluded : frame.Secluded n) (deed : Deed w frame w' frames) (sound : Sound w.loader)
    (queued : w.fetcher.policy = .queued) : Loader.Lasts w.loader w'.loader := by
  cases deed with
  | aside outside stays => exact .of_stays stays
  | entered k rest b => exact World.enter_lasts sound queued k b
  | answered token takes =>
    cases frame with
    | script site actions =>
      cases secluded
      cases takes
    | completeRest => cases secluded
    | _ => cases takes
  | _ => cases secluded

section

variable {host : Action → Prop} {setup : Setup} {past : List Machine} {m : Machine} {n : Nat}

/-- Nothing but loads is left to do, apart from those that were begun before. -/
structure Machine.Secluded (n : Nat) (m : Machine) : Prop where
  loads : m.world.loader.Secluded n
  stack : ∀ f ∈ m.stack, f.Secluded n

/-- While there are only loads to do, what is at hand stays at hand. -/
theorem Run.lasts (run : Run host (.fresh setup) past m) (queued : setup.policy = .queued)
    (secluded : m.Secluded n) (fuel : Nat) :
    Loader.Lasts m.world.loader (Machine.run fuel m).world.loader := by
  induction fuel generalizing past m with
  | zero => exact .refl _
  | succ fuel ih =>
    obtain ⟨w, stack⟩ := m
    cases stack with
    | nil => exact .refl _
    | cons frame rest =>
      obtain ⟨loads, stack⟩ := secluded
      obtain ⟨here, below⟩ := List.forall_mem_cons.mp stack
      have policy := (lossless_always run queued).policy
      obtain ⟨later, frames⟩ := here.next run.sound policy loads
      have first := here.lasts run.deed run.sound policy
      exact first.trans (ih (run.work (Machine.step?_cons w frame rest))
        ⟨later, List.forall_mem_append.mpr ⟨frames, below⟩⟩)

end

end ModuleLoader
