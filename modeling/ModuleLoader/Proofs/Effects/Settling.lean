import Mathlib.Data.List.Induction
import ModuleLoader.Proofs.Effects.Entries

/-! What the registrations of a resource come to. Two places of the loader hold what has been registered
without a name and what was registered by name first; they are filled by one resource after the other, and
the end of a retrieval empties them. -/
namespace ModuleLoader

namespace Loader

/-- What has been reported, as far as the sink holds it or lets it be followed. -/
def reports (l : Loader) : Sink × List Event := (l.sink, l.trace.toList.filter Event.isReport)

/-- Nothing is reported, and what waits for a retrieval to end goes on to wait. -/
structure Mute (l l' : Loader) : Prop where
  reports : l'.reports = l.reports
  anonymous : l'.anonymous = l.anonymous
  firstNamed : l'.firstNamed = l.firstNamed

theorem note_reports (l : Loader) {e : Event} (plain : e.isReport = false) :
    (l.note e).reports = l.reports := by
  rw [reports, note, Array.toList_push, List.filter_append, List.filter_singleton, plain]
  exact congrArg _ (List.append_nil _)

theorem report_reports {l l' : Loader} (same : l'.reports = l.reports) (c : Condition) :
    (l'.report c).reports = (l.report c).reports := by
  obtain ⟨sink, events⟩ := Prod.mk.inj same
  simp only [report, emit, reports, sink]
  split <;> simp [note, List.filter_append, events]

namespace Mute

theorem refl (l : Loader) : Mute l l := ⟨rfl, rfl, rfl⟩

theorem trans {a b c : Loader} (ab : Mute a b) (bc : Mute b c) : Mute a c :=
  ⟨bc.reports.trans ab.reports, bc.anonymous.trans ab.anonymous, bc.firstNamed.trans ab.firstNamed⟩

theorem note (l : Loader) {e : Event} (plain : e.isReport = false) : Mute l (l.note e) :=
  ⟨l.note_reports plain, rfl, rfl⟩

theorem foldl {α : Type} {f : Loader → α → Loader} (each : ∀ l a, Mute l (f l a)) (l : Loader)
    (as : List α) : Mute l (as.foldl f l) := by
  induction as generalizing l with
  | nil => exact .refl l
  | cons a as ih => exact (each l a).trans (ih (f l a))

end Mute

theorem endFetching_mute (l : Loader) (r : RecordId) : Mute l (l.endFetching r) := by
  unfold endFetching
  split
  · exact Mute.trans (b := l.updateRecord r fun record => { record with status := .fetched })
      ⟨rfl, rfl, rfl⟩ (.note _ rfl)
  · exact .refl l

theorem ensure_mute (l : Loader) (locator : Locator) (s : Status) : Mute l (l.ensure locator s).1 := by
  obtain ⟨r, -, same⟩ | ⟨-, same⟩ := l.ensure_cases locator s <;> rw [same] <;> exact ⟨rfl, rfl, rfl⟩

theorem save_mute (l : Loader) (locator : Locator) (definition : Definition) :
    Mute l (l.save locator definition).1 := by
  have made := l.ensure_mute locator .unknown
  unfold save
  dsimp only
  split
  · exact made.trans (.note _ rfl)
  · exact made.trans ⟨rfl, rfl, rfl⟩

theorem share_mute (l : Loader) (locator : Locator) (target : RecordId) :
    Mute l (l.share locator target) := by
  have noted : Mute l (l.note (.shared locator (l.record target).locator)) := .note l rfl
  unfold share
  dsimp only
  split
  · split
    · exact noted.trans ⟨rfl, rfl, rfl⟩
    · exact noted.trans ⟨rfl, rfl, rfl⟩
  · exact .refl l

theorem settleJoined_mute (l : Loader) (target : RecordId) (locator : Locator) :
    Mute l (l.settleJoined target locator) := by
  unfold settleJoined
  split
  · exact l.share_mute locator target
  · split
    · exact l.endFetching_mute _
    · exact .refl l

/-! Registrations, as the page means them. -/

/-- The locator that the identifier of a registration names. -/
def named? (l : Loader) (registration : Registration) : Option Locator :=
  registration.id.bind (l.resolve · none)

/-- The first registration under a locator. -/
def ownIn? (l : Loader) (locator : Locator) (rs : List Registration) : Option Registration :=
  rs.find? fun registration => l.named? registration = some locator

/-- The registrations that name nothing. -/
def unnamedIn (l : Loader) (rs : List Registration) : List Registration :=
  rs.filter fun registration => l.named? registration = none

/-- The first locator that is registered by name. -/
def firstIn? (l : Loader) (rs : List Registration) : Option Locator := rs.findSome? l.named?

/-- A record with what was registered under its locator. -/
def savedAs (l : Loader) (locator : Locator) (registration : Registration) (record : Record) : Record :=
  record.save registration.definition
    (l.resolveDependencies locator registration.definition.dependencies)

theorem Quiet.named {l l' : Loader} (quiet : Quiet l l') (registration : Registration) :
    l'.named? registration = l.named? registration := by
  simp only [named?, resolve, quiet.resolver, quiet.config]

theorem Quiet.savedAs {l l' : Loader} (quiet : Quiet l l') (locator : Locator)
    (registration : Registration) (record : Record) :
    l'.savedAs locator registration record = l.savedAs locator registration record := by
  simp only [Loader.savedAs, resolveDependencies, resolve, quiet.resolver, quiet.config]

theorem define_unnamed {l : Loader} {registration : Registration}
    (unnamed : l.named? registration = none) :
    l.define registration = l.park registration.definition := by
  have nothing : registration.definition.id.bind (l.resolve · none) = none := unnamed
  simp only [define, register, nothing, Option.or_none]

theorem define_named {l : Loader} {registration : Registration} {k : Locator}
    (named : l.named? registration = some k) :
    l.define registration = (l.save k registration.definition).1.rememberFirst
      (l.save k registration.definition).2 := by
  have found : registration.definition.id.bind (l.resolve · none) = some k := named
  simp only [define, register, found, Option.or_none, reduceCtorEq, if_false]

/-! One registration more. -/

section

variable {l : Loader} {registration : Registration} {k : Locator}

theorem ownIn_unnamed (unnamed : l.named? registration = none) (k : Locator) (rs : List Registration) :
    l.ownIn? k (rs ++ [registration]) = l.ownIn? k rs := by
  simp [ownIn?, List.find?_append, unnamed]

theorem firstIn_unnamed (unnamed : l.named? registration = none) (rs : List Registration) :
    l.firstIn? (rs ++ [registration]) = l.firstIn? rs := by
  simp [firstIn?, List.findSome?_append, unnamed]

theorem unnamedIn_unnamed (unnamed : l.named? registration = none) (rs : List Registration) :
    l.unnamedIn (rs ++ [registration]) = l.unnamedIn rs ++ [registration] := by
  simp [unnamedIn, List.filter_append, unnamed]

theorem ownIn_named (named : l.named? registration = some k) (j : Locator) (rs : List Registration) :
    l.ownIn? j (rs ++ [registration]) =
      (l.ownIn? j rs).or (if k = j then some registration else none) := by
  simp only [ownIn?, List.find?_append, List.find?_singleton, named, Option.some.injEq, decide_eq_true_eq]

theorem firstIn_named (named : l.named? registration = some k) (rs : List Registration) :
    l.firstIn? (rs ++ [registration]) = (l.firstIn? rs).or (some k) := by
  simp [firstIn?, List.findSome?_append, named]

theorem unnamedIn_named (named : l.named? registration = some k) (rs : List Registration) :
    l.unnamedIn (rs ++ [registration]) = l.unnamedIn rs := by
  simp [unnamedIn, List.filter_append, named]

end

/-- A definition without a name has been put aside, which no locator and no record is concerned with. -/
structure Parks (l : Loader) (definition : Definition) (l' : Loader) : Prop where
  entry : l'.entry? = l.entry?
  record : l'.record = l.record
  firstNamed : l'.firstNamed = l.firstNamed
  anonymous : l'.anonymous = some definition

theorem park_parks (l : Loader) (definition : Definition) : Parks l definition (l.park definition) := by
  unfold park
  dsimp only
  split
  · unfold report emit
    dsimp only
    split <;> exact ⟨rfl, rfl, rfl, rfl⟩
  · exact ⟨rfl, rfl, rfl, rfl⟩

/-! Saving, beside a record that goes by one locator alone. -/

section

variable {l : Loader} {locator k : Locator} {r : RecordId}

theorem save_at (held : l.entry? k = some r) (definition : Definition) :
    (l.save k definition).2 = r := by
  simp only [save, ensure, held]
  split <;> rfl

theorem save_new (absent : l.entry? k = none) (definition : Definition) :
    (l.save k definition).2 = ⟨l.records.size⟩ := by
  simp only [save, ensure, absent, newRecord]
  split <;> rfl

/-- While a retrieval is under way, a module registered by name is remembered unless one is already. -/
theorem rememberFirst_flying (flying : l.ledger.inFlight.isEmpty = false) (r : RecordId) :
    l.rememberFirst r = { l with firstNamed := l.firstNamed.or (some r) } := by
  unfold rememberFirst
  cases named : l.firstNamed with
  | none => rw [flying]; rfl
  | some first => rw [Option.some_or, if_neg (by simp), ← named]

/-- So a registration by name is saved and, if nothing is remembered yet, remembered. -/
theorem define_flying {registration : Registration}
    (named : l.named? registration = some k) (flying : l.ledger.inFlight.isEmpty = false) :
    l.define registration =
      { (l.save k registration.definition).1 with
        firstNamed := (l.save k registration.definition).1.firstNamed.or
          (some (l.save k registration.definition).2) } := by
  have still : (l.save k registration.definition).1.ledger.inFlight.isEmpty = false := by
    rw [((l.save_edits k _).quiet id).ledger]
    exact flying
  exact (define_named named).trans (rememberFirst_flying still _)

theorem save_own (held : l.entry? locator = some r) (known : l.status r ≠ .unknown)
    (definition : Definition) :
    (l.save locator definition).1.record r =
      if .saved ≤ l.status r then l.record r
      else (l.record r).save definition (l.resolveDependencies locator definition.dependencies) := by
  simp only [save, ensure, held]
  split
  · rfl
  · exact (record_updateRecord_inside (index_lt_of_known known) _ r).trans (if_pos rfl)

theorem save_other (other : l.entry? k ≠ some r) (known : l.status r ≠ .unknown)
    (definition : Definition) : (l.save k definition).1.record r = l.record r := by
  obtain ⟨x, held, same⟩ | ⟨-, same⟩ := l.ensure_cases k .unknown
  · have apart : x ≠ r := fun here => other (here ▸ held)
    simp only [save, same]
    split
    · rfl
    · rw [record_updateRecord, if_neg (apart ·.1)]
  · have fresh : Loader.status ((l.newRecord k .unknown).1.point k ⟨l.records.size⟩)
        ⟨l.records.size⟩ = .unknown := by rw [status, l.record_made, if_pos rfl]
    have old : r ≠ ⟨l.records.size⟩ := Renames.not_new (index_lt_of_known known)
    simp only [save, same, fresh]
    rw [if_neg (by decide)]
    exact (l.made_saved_adds k definition _).1.others r old

end

/-- Registrations have been made while a locator's record was being retrieved, and nothing was waiting for
an earlier retrieval to end. -/
structure Gathers (l : Loader) (locator : Locator) (r : RecordId) (rs : List Registration)
    (l' : Loader) : Prop where
  quiet : Quiet l l'
  sound : Sound l'
  entry : l'.entry? locator = some r
  lone : ∀ k, l'.entry? k = some r → k = locator
  saved : ∀ registration, l.ownIn? locator rs = some registration →
    l'.record r = l.savedAs locator registration (l.record r)
  waiting : l.ownIn? locator rs = none → l'.record r = l.record r
  anonymous : l'.anonymous = (l.unnamedIn rs).getLast?.map Registration.definition
  first : ∀ k, l.firstIn? rs = some k → ∃ x, l'.firstNamed = some x ∧ l'.entry? k = some x
  unnamed : l.firstIn? rs = none → l'.firstNamed = none
  reports : l'.reports =
    (l.reportAll (.replicate ((l.unnamedIn rs).length - 1) .duplicateAnonymous)).reports

/-- What is on the way while a locator is being retrieved. -/
structure Retrieving (l : Loader) (locator : Locator) (r : RecordId) : Prop where
  sound : Sound l
  entry : l.entry? locator = some r
  lone : ∀ k, l.entry? k = some r → k = locator
  own : (l.record r).locator = locator
  fetching : l.status r = .fetching
  flying : l.ledger.inFlight.isEmpty = false

namespace Gathers

variable {l l' : Loader} {locator : Locator} {r : RecordId} {rs : List Registration}

theorem nil (retrieving : Retrieving l locator r) (anonymous : l.anonymous = none)
    (firstNamed : l.firstNamed = none) : Gathers l locator r [] l :=
  ⟨.refl l, retrieving.sound, retrieving.entry, retrieving.lone, fun _ own => (by cases own), fun _ => rfl,
    anonymous, fun _ first => (by cases first), fun _ => firstNamed, rfl⟩

theorem known (gathers : Gathers l locator r rs l') : l'.status r ≠ .unknown :=
  gathers.sound.known gathers.entry

/-- Whether anything has been saved in the record. -/
theorem saved_iff (gathers : Gathers l locator r rs l') (fetching : l.status r = .fetching) :
    .saved ≤ l'.status r ↔ (l.ownIn? locator rs).isSome = true := by
  cases own : l.ownIn? locator rs with
  | some registration =>
    rw [status, gathers.saved registration own]
    exact ⟨fun _ => rfl, fun _ => Status.le_refl _⟩
  | none =>
    rw [status, gathers.waiting own, show (l.record r).status = .fetching from fetching]
    exact ⟨fun saved => absurd saved (by decide), fun some => by cases some⟩

/-- A registration that names nothing waits, and one that was waiting is reported. -/
theorem park (gathers : Gathers l locator r rs l') {registration : Registration}
    (unnamed : l.named? registration = none) :
    Gathers l locator r (rs ++ [registration]) (l'.define registration) := by
  have same : l'.define registration = l'.park registration.definition :=
    define_unnamed ((gathers.quiet.named registration).trans unnamed)
  have own := ownIn_unnamed unnamed locator rs
  have first := firstIn_unnamed unnamed rs
  have parked := unnamedIn_unnamed unnamed rs
  have parks := l'.park_parks registration.definition
  rw [same]
  refine ⟨gathers.quiet.trans ((l'.park_edits _).quiet id), (l'.park_orderly _ gathers.sound).1, ?_, ?_, ?_, ?_, ?_,
    ?_, ?_, ?_⟩
  · rw [parks.entry]
    exact gathers.entry
  · rw [parks.entry]
    exact gathers.lone
  · rw [own, parks.record]
    exact gathers.saved
  · rw [own, parks.record]
    exact gathers.waiting
  · rw [parks.anonymous, parked, List.getLast?_concat, Option.map_some]
  · rw [first, parks.firstNamed, parks.entry]
    exact gathers.first
  · rw [first, parks.firstNamed]
    exact gathers.unnamed
  · rw [parked, List.length_append, List.length_singleton, Nat.add_sub_cancel]
    have before := gathers.anonymous
    unfold Loader.park
    cases waits : l.unnamedIn rs using List.reverseRecOn with
    | nil =>
      rw [waits] at before
      have reports := gathers.reports
      rw [waits] at reports
      simp only [before, List.getLast?_nil, Option.map_none, Option.isSome_none, if_false,
        Bool.false_eq_true]
      exact reports
    | append_singleton earlier last =>
      rw [waits, List.getLast?_concat, Option.map_some] at before
      have reports := gathers.reports
      rw [waits, List.length_append, List.length_singleton, Nat.add_sub_cancel] at reports
      simp only [before, Option.isSome_some, if_true, List.length_append, List.length_singleton]
      rw [List.replicate_succ', reportAll, List.foldl_append]
      refine report_reports ?_ _
      exact reports

/-- Another locator stands for another record, before and after. -/
theorem apart (gathers : Gathers l locator r rs l') {k : Locator} (other : k ≠ locator)
    (definition : Definition) : (l'.save k definition).2 ≠ r := by
  cases held : l'.entry? k with
  | some x =>
    rw [save_at held]
    rintro rfl
    exact other (gathers.lone k held)
  | none =>
    rw [save_new held]
    exact (Renames.not_new (index_lt_of_known gathers.known)).symm

/-- The first registration under the locator is the one that its record keeps. -/
theorem save_chosen (gathers : Gathers l locator r rs l') (fetching : l.status r = .fetching)
    {registration chosen : Registration} {k : Locator}
    (now : (l.ownIn? locator rs).or (if k = locator then some registration else none) = some chosen) :
    (l'.save k registration.definition).1.record r = l.savedAs locator chosen (l.record r) := by
  by_cases here : k = locator
  · subst here
    rw [save_own gathers.entry gathers.known]
    cases before : l.ownIn? k rs with
    | some earlier =>
      rw [before, Option.some_or] at now
      cases now
      rw [if_pos ((gathers.saved_iff fetching).mpr (by rw [before]; rfl))]
      exact gathers.saved chosen before
    | none =>
      rw [before, if_pos rfl, Option.none_or] at now
      cases now
      have unsaved : ¬ .saved ≤ l'.status r := fun saved => by
        have some := (gathers.saved_iff fetching).mp saved
        rw [before] at some
        cases some
      rw [if_neg unsaved, ← gathers.waiting before]
      exact gathers.quiet.savedAs k registration (l'.record r)
  · rw [if_neg here, Option.or_none] at now
    rw [save_other (fun held => here (gathers.lone k held)) gathers.known]
    exact gathers.saved chosen now

/-- What is remembered is what was named first, and its locator still stands for it. -/
theorem save_first (gathers : Gathers l locator r rs l') {k x : Locator} (definition : Definition)
    (now : (l.firstIn? rs).or (some k) = some x) :
    ∃ y, l'.firstNamed.or (some (l'.save k definition).2) = some y ∧
      Loader.entry? (l'.save k definition).1 x = some y := by
  have entry := (l'.save_saves k definition (Clears.refl gathers.sound k).inside).entry
  rw [entry]
  cases before : l.firstIn? rs with
  | some earlier =>
    rw [before, Option.some_or] at now
    cases now
    obtain ⟨y, remembered, held⟩ := gathers.first x before
    refine ⟨y, by rw [remembered, Option.some_or], ?_⟩
    split
    · rename_i here
      subst here
      rw [save_at held]
    · exact held
  | none =>
    rw [before, Option.none_or] at now
    cases now
    rw [gathers.unnamed before, if_pos rfl]
    exact ⟨_, rfl, rfl⟩

/-- A registration by name is saved, if it is the first under its locator. -/
theorem name (gathers : Gathers l locator r rs l') (retrieving : Retrieving l locator r)
    {registration : Registration} {k : Locator} (named : l.named? registration = some k) :
    Gathers l locator r (rs ++ [registration]) (l'.define registration) := by
  have same := define_flying ((gathers.quiet.named registration).trans named)
    (gathers.quiet.ledger ▸ retrieving.flying)
  have saves := l'.save_saves k registration.definition (Clears.refl gathers.sound k).inside
  have mute := l'.save_mute k registration.definition
  have sound := (l'.register_orderly registration none gathers.sound).1
  have quiet := gathers.quiet.trans ((l'.register_edits registration none).quiet id)
  rw [show l'.register registration none = _ from same] at sound quiet
  have own := ownIn_named named locator rs
  have first := firstIn_named named rs
  have parked := unnamedIn_named named rs
  rw [same]
  refine ⟨quiet, sound, ?_, ?_, ?_, ?_, ?_, ?_, ?_, ?_⟩
  · refine (saves.entry locator).trans ?_
    split
    · rename_i here
      subst here
      rw [save_at gathers.entry]
    · exact gathers.entry
  · intro x stands
    have held : (if k = x then some _ else l'.entry? x) = some r := (saves.entry x).symm.trans stands
    split at held
    · rename_i here
      subst here
      exact Decidable.byContradiction fun other => gathers.apart other _ (Option.some.inj held)
    · exact gathers.lone x held
  · intro chosen now
    exact gathers.save_chosen retrieving.fetching (own ▸ now)
  · intro now
    rw [own, Option.or_eq_none_iff] at now
    have other : k ≠ locator := fun here => by
      rw [if_pos here] at now
      cases now.2
    change (l'.save k registration.definition).1.record r = _
    rw [save_other (fun held => other (gathers.lone k held)) gathers.known]
    exact gathers.waiting now.1
  · rw [parked, ← gathers.anonymous]
    exact mute.anonymous
  · intro x now
    change ∃ y, (l'.save k registration.definition).1.firstNamed.or _ = some y ∧ _
    rw [mute.firstNamed]
    exact gathers.save_first registration.definition (first ▸ now)
  · intro now
    rw [first, Option.or_eq_none_iff] at now
    cases now.2
  · rw [parked, ← gathers.reports]
    exact mute.reports

/-- All the registrations of a resource are made. -/
theorem all (retrieving : Retrieving l locator r) (anonymous : l.anonymous = none)
    (firstNamed : l.firstNamed = none) (rs : List Registration) :
    Gathers l locator r rs (rs.foldl define l) := by
  induction rs using List.reverseRecOn with
  | nil => exact .nil retrieving anonymous firstNamed
  | append_singleton rs registration gathers =>
    rw [List.foldl_append, List.foldl_cons, List.foldl_nil]
    cases named : l.named? registration with
    | none => exact gathers.park named
    | some k => exact gathers.name retrieving named

end Gathers

/-! The end of a retrieval. -/

end Loader

/-- A record is as it was, but it may have got a second locator if it had none. -/
structure Record.Shared (r r' : Record) : Prop where
  same : { r' with secondLocator := none } = { r with secondLocator := none }
  kept : ∀ k, r.secondLocator = some k → r'.secondLocator = some k

theorem Record.Shared.refl (r : Record) : Shared r r := ⟨rfl, fun _ named => named⟩

theorem Record.Shared.trans {a b c : Record} (ab : Shared a b) (bc : Shared b c) : Shared a c :=
  ⟨bc.same.trans ab.same, fun k named => bc.kept k (ab.kept k named)⟩

theorem Record.Shared.status {r r' : Record} (shared : Shared r r') : r'.status = r.status :=
  (congrArg Record.status shared.same :)

namespace Loader

section

variable {l : Loader} {locator : Locator} {r target : RecordId}

theorem share_record (l : Loader) (locator : Locator) (target : RecordId) :
    (l.record target).Shared ((l.share locator target).record target) := by
  unfold share
  dsimp only
  split
  · split
    · rename_i alone
      have none : (l.record target).secondLocator = none := by
        simp only [Bool.and_eq_true] at alone
        exact Option.isNone_iff_eq_none.mp alone.1
      have seconded := Loader.record_updateRecord
        ((l.note (.shared locator (l.record target).locator)).point locator target) target target
        fun record => { record with secondLocator := some locator }
      rw [setSecondLocator, seconded]
      split
      · refine ⟨rfl, fun k named => ?_⟩
        cases none.symm.trans named
      · exact .refl _
    · exact .refl _
  · exact .refl _

/-- The record whose module is shared stays as it is, or it goes by one locator more. -/
theorem settleJoined_record (fetched : .fetched ≤ l.status target) (locator : Locator) :
    (l.settleJoined target locator).record target = l.record target ∨
      .saved ≤ l.status target ∧
        (l.record target).Shared ((l.settleJoined target locator).record target) := by
  unfold settleJoined
  split
  · rename_i saved
    exact .inr ⟨saved, l.share_record locator target⟩
  · split
    · rename_i x _
      by_cases fetching : l.status x = .fetching
      · rw [record_endFetching fetching, if_neg]
        · exact .inl rfl
        · rintro rfl
          exact Status.ne_fetching (by decide) fetched fetching
      · rw [endFetching, if_neg fetching]
        exact .inl rfl
    · exact .inl rfl

theorem foldl_settleJoined_record (target : RecordId) (fetched : .fetched ≤ l.status target)
    (locators : List Locator) :
    (locators.foldl (settleJoined · target) l).record target = l.record target ∨
      .saved ≤ l.status target ∧
        (l.record target).Shared ((locators.foldl (settleJoined · target) l).record target) := by
  induction locators generalizing l with
  | nil => exact .inl rfl
  | cons locator locators ih =>
    have first := l.settleJoined_record fetched locator
    have status : (l.settleJoined target locator).status target = l.status target := by
      obtain same | ⟨-, shared⟩ := first
      · rw [Loader.status, same, Loader.status]
      · exact shared.status
    have rest := ih (l := l.settleJoined target locator) (status ▸ fetched)
    rw [status] at rest
    rw [List.foldl_cons]
    obtain same | ⟨saved, shared⟩ := rest
    · rw [same]
      exact first
    · refine .inr ⟨saved, ?_⟩
      obtain same | ⟨-, before⟩ := first
      · exact same ▸ shared
      · exact before.trans shared

theorem foldl_settleJoined_entry {k : Locator} (held : l.entry? k = some target)
    (locators : List Locator) :
    Loader.entry? (locators.foldl (settleJoined · target) l) k = some target := by
  induction locators generalizing l with
  | nil => exact held
  | cons locator locators ih => exact ih (l.settleJoined_entry target held)

theorem nameAnonymous_empties (l : Loader) (locator : Locator) :
    (l.nameAnonymous locator).anonymous = none ∧ (l.nameAnonymous locator).reports = l.reports ∧
      (l.nameAnonymous locator).firstNamed = l.firstNamed := by
  unfold nameAnonymous
  split
  · have mute := Loader.save_mute { l with anonymous := none } locator ‹_›
    exact ⟨mute.anonymous, mute.reports, mute.firstNamed⟩
  · exact ⟨‹_›, rfl, rfl⟩

theorem takeFirstNamed_empties (l : Loader) (locator : Locator) (r : RecordId) :
    (l.takeFirstNamed locator r).firstNamed = none ∧
      (l.takeFirstNamed locator r).reports = l.reports ∧
      (l.takeFirstNamed locator r).anonymous = l.anonymous := by
  unfold takeFirstNamed
  split
  · dsimp only
    split <;> exact ⟨rfl, rfl, rfl⟩
  · exact ⟨‹_›, rfl, rfl⟩

/-- When a retrieval has ended, nothing waits for it any more. -/
theorem finishFetch_empties (l : Loader) (token : FetchToken) :
    (l.finishFetch token).1.anonymous = none ∧ (l.finishFetch token).1.firstNamed = none ∧
      (l.finishFetch token).1.reports = l.reports := by
  have closed : Mute l ((l.note (.fetched token.locator token.resource)).closeRetrieval token) :=
    Mute.trans (.note l rfl) ⟨rfl, rfl, rfl⟩
  have made := closed.trans (ensure_mute _ token.locator .fetching)
  unfold finishFetch settle
  generalize ensure ((l.note (.fetched token.locator token.resource)).closeRetrieval token)
    token.locator .fetching = start at *
  obtain ⟨l₁, r⟩ := start
  dsimp only at *
  have ended := made.trans (l₁.endFetching_mute r)
  obtain ⟨unnamed, reports, -⟩ := (l₁.endFetching r).nameAnonymous_empties token.locator
  obtain ⟨none, reports', anonymous⟩ :=
    ((l₁.endFetching r).nameAnonymous token.locator).takeFirstNamed_empties token.locator r
  have emptied := And.intro (anonymous.trans unnamed) (And.intro none
    (reports'.trans (reports.trans ended.reports)))
  split
  · rename_i target _
    have mute := Mute.foldl (fun l locator => l.settleJoined_mute target locator)
      (((l₁.endFetching r).nameAnonymous token.locator).takeFirstNamed token.locator r)
      (List.filter (· ≠ token.locator) (List.map Waiter.locator
        ((l.ledger.inFlight.get? token.resource).getD [])))
    exact ⟨mute.anonymous.trans emptied.1, mute.firstNamed.trans emptied.2.1,
      mute.reports.trans emptied.2.2⟩
  · exact emptied

/-- The first module is not taken for a locator that has got something, or if there is none. -/
theorem takeFirstNamed_other (locator : Locator) (other : l.status r ≠ .fetched ∨ l.firstNamed = none) :
    (l.takeFirstNamed locator r).registry = l.registry ∧
      (l.takeFirstNamed locator r).records = l.records := by
  unfold takeFirstNamed
  split
  · rename_i first named
    dsimp only
    rw [if_neg]
    · exact ⟨rfl, rfl⟩
    · rintro ⟨fetched, -⟩
      obtain other | none := other
      · exact other fetched
      · cases named.symm.trans none
  · exact ⟨rfl, rfl⟩

/-- The first module is taken. -/
theorem takeFirstNamed_taken {first : RecordId} (named : l.firstNamed = some first)
    (fetched : l.status r = .fetched) (apart : first ≠ r) :
    l.takeFirstNamed locator r =
      (({ l with firstNamed := none }).point locator first).setSecondLocator first locator := by
  simp only [takeFirstNamed, named]
  exact if_pos ⟨fetched, apart⟩

theorem settle_held {token : FetchToken} (held : l.entry? token.locator = some r)
    (found : Loader.entry? (((l.endFetching r).nameAnonymous token.locator).takeFirstNamed
      token.locator r) token.locator = some target) (waiters : List Waiter) :
    l.settle token waiters =
      ((waiters.map Waiter.locator).filter (· ≠ token.locator)).foldl (settleJoined · target)
        (((l.endFetching r).nameAnonymous token.locator).takeFirstNamed token.locator r) := by
  simp only [settle, ensure, held, found]

/-- A record keeps its locator if something has been saved in it, or if nothing was registered by name. -/
theorem settle_kept {token : FetchToken} (held : l.entry? token.locator = some r) {record : Record}
    (named : ((l.endFetching r).nameAnonymous token.locator).record r = record)
    (fetched : .fetched ≤ record.status) (other : record.status ≠ .fetched ∨ l.firstNamed = none)
    (waiters : List Waiter) :
    Loader.entry? (l.settle token waiters) token.locator = some r ∧
      ((l.settle token waiters).record r = record ∨
        .saved ≤ record.status ∧ record.Shared ((l.settle token waiters).record r)) := by
  have unnamed : ((l.endFetching r).nameAnonymous token.locator).firstNamed = l.firstNamed :=
    (nameAnonymous_empties _ _).2.2.trans (l.endFetching_mute r).firstNamed
  have status : ((l.endFetching r).nameAnonymous token.locator).status r = record.status :=
    congrArg Record.status named
  obtain ⟨registry, records⟩ := takeFirstNamed_other token.locator (r := r)
    (l := (l.endFetching r).nameAnonymous token.locator) (by rw [status, unnamed]; exact other)
  have ended : Loader.entry? (l.endFetching r) token.locator = some r :=
    ((l.endFetching_rests r).entry _).trans held
  have found : Loader.entry? (((l.endFetching r).nameAnonymous token.locator).takeFirstNamed
      token.locator r) token.locator = some r :=
    (congrArg (OrderedMap.get? · token.locator) registry).trans
      ((nameAnonymous_entry ended _).trans ended)
  have same : Loader.record (((l.endFetching r).nameAnonymous token.locator).takeFirstNamed
      token.locator r) r = record := by
    rw [Loader.record, records]
    exact named
  rw [settle_held held found]
  refine ⟨foldl_settleJoined_entry found _, ?_⟩
  have joined := foldl_settleJoined_record r
    (l := ((l.endFetching r).nameAnonymous token.locator).takeFirstNamed token.locator r)
    (by rw [Loader.status, same]; exact fetched)
    ((waiters.map Waiter.locator).filter (· ≠ token.locator))
  rw [Loader.status, same] at joined
  exact joined

theorem settle_saved {token : FetchToken} (held : l.entry? token.locator = some r) {record : Record}
    (named : ((l.endFetching r).nameAnonymous token.locator).record r = record)
    (saved : record.status = .saved) (waiters : List Waiter) :
    Loader.entry? (l.settle token waiters) token.locator = some r ∧
      record.Shared ((l.settle token waiters).record r) := by
  obtain ⟨entry, same | ⟨-, shared⟩⟩ := settle_kept held named (by rw [saved]; decide)
    (.inl (by rw [saved]; decide)) waiters
  · rw [same]
    exact ⟨entry, .refl record⟩
  · exact ⟨entry, shared⟩

/-- A locator for which nothing has been registered is handed to the first module, and noted with it. -/
theorem settle_taken {token : FetchToken} {first : RecordId} (sound : Sound l)
    (held : l.entry? token.locator = some r)
    (unnamed : (l.endFetching r).nameAnonymous token.locator = l.endFetching r)
    (fetched : (l.endFetching r).status r = .fetched) (named : l.firstNamed = some first)
    (apart : first ≠ r) (waiters : List Waiter) :
    (∀ k, k = token.locator ∨ l.entry? k = some first →
      Loader.entry? (l.settle token waiters) k = some first) ∧
      ((l.settle token waiters).record first).secondLocator = some token.locator := by
  have taken : Loader.takeFirstNamed (l.endFetching r) token.locator r = _ :=
    takeFirstNamed_taken (((l.endFetching_mute r).firstNamed).trans named) fetched apart
  have far : Status.saved ≤ (l.endFetching r).status first :=
    Status.le_trans (sound.named named) ((l.endFetching_rests r).rises first)
  obtain ⟨-, gives⟩ := Loader.point_gives { l.endFetching r with firstNamed := none } token.locator first
  have second : ((({ l.endFetching r with firstNamed := none } : Loader).point token.locator
      first).setSecondLocator first token.locator).record first = _ :=
    (record_updateRecord_inside (index_lt_of_known (Status.ne_unknown_of_le (a := .saved) (by decide)
      far)) _ first).trans (if_pos rfl)
  have settled := settle_held held (by rw [unnamed, taken, gives.entry, if_pos rfl]) waiters
  rw [unnamed, taken] at settled
  rw [settled]
  refine ⟨fun k either => foldl_settleJoined_entry ?_ _, ?_⟩
  · rw [gives.entry]
    split
    · rfl
    · rename_i other
      exact ((l.endFetching_rests r).entry k).trans (either.resolve_left (Ne.symm other))
  · obtain same | ⟨-, shared⟩ := foldl_settleJoined_record first
      (by rw [gives.status]; exact Status.le_trans (by decide) far)
      ((waiters.map Waiter.locator).filter (· ≠ token.locator))
    · rw [same, second]
    · exact shared.kept _ (by rw [second])

end

/-- A locator stands for a record of its own, which has just been saved from a registration. -/
structure Brings (l : Loader) (locator : Locator) (registration : Registration) (r : RecordId) :
    Prop where
  entry : l.entry? locator = some r
  own : (l.record r).locator = locator
  status : l.status r = .saved
  declared : (l.record r).declaredId = registration.id
  dependencies : (l.record r).dependencies =
    l.resolveDependencies locator registration.definition.dependencies
  factory : (l.record r).factory = some registration.factory

/-- What the registrations of a resource make of the locator that it was retrieved for. -/
structure Packs (l : Loader) (locator : Locator) (r : RecordId) (rs : List Registration)
    (l' : Loader) : Prop where
  /-- The first module that is registered under the locator wins. -/
  named : ∀ registration, l.ownIn? locator rs = some registration → l'.Brings locator registration r
  /-- Otherwise it is the last one without a name. -/
  unnamed : l.ownIn? locator rs = none → ∀ registration,
    (l.unnamedIn rs).getLast? = some registration → l'.Brings locator registration r
  /-- Otherwise the locator stands for the first module that is registered at all. -/
  taken : l.ownIn? locator rs = none → l.unnamedIn rs = [] → ∀ k, l.firstIn? rs = some k →
    ∃ first, first ≠ r ∧ l'.entry? locator = some first ∧ l'.entry? k = some first ∧
      (l'.record first).secondLocator = some locator
  /-- Where there is nothing, the record is left as one that was retrieved in vain. -/
  bare : rs = [] → l'.entry? locator = some r ∧ l'.record r = { l.record r with status := .fetched }
  /-- Of the modules without a name all but one are reported. -/
  reports : l'.reports =
    (l.reportAll (.replicate ((l.unnamedIn rs).length - 1) .duplicateAnonymous)).reports

namespace Gathers

variable {l g : Loader} {token : FetchToken} {r : RecordId} {rs : List Registration}

theorem brings (gathers : Gathers l token.locator r rs g) (retrieving : Retrieving l token.locator r)
    {registration : Registration} {waiters : List Waiter} (closed : Loader)
    (config : closed.config = g.config) (resolver : closed.resolver = g.resolver)
    (settled : Loader.entry? (closed.settle token waiters) token.locator = some r ∧
      (l.savedAs token.locator registration (l.record r)).Shared
        ((closed.settle token waiters).record r)) :
    (closed.settle token waiters).Brings token.locator registration r := by
  obtain ⟨entry, shared⟩ := settled
  have quiet := (closed.settle_edits token waiters).quiet id
  refine ⟨entry, ?_, shared.status, (congrArg Record.declaredId shared.same :), ?_,
    (congrArg Record.factory shared.same :)⟩
  · exact (congrArg Record.locator shared.same :).trans retrieving.own
  · refine (congrArg Record.dependencies shared.same :).trans ?_
    simp only [savedAs, Record.save, resolveDependencies, resolve, quiet.resolver, quiet.config, config,
      resolver, gathers.quiet.resolver, gathers.quiet.config]

/-- What has been registered under the locator stays, whatever waits for a name. -/
theorem named_saved (gathers : Gathers l token.locator r rs g) (closed : Loader)
    (registry : closed.registry = g.registry) (records : closed.records = g.records)
    {registration : Registration} (own : l.ownIn? token.locator rs = some registration) :
    ((closed.endFetching r).nameAnonymous token.locator).record r =
      l.savedAs token.locator registration (l.record r) := by
  have same : closed.record r = l.savedAs token.locator registration (l.record r) := by
    rw [Loader.record, records]
    exact gathers.saved registration own
  have saved : closed.status r = .saved := congrArg Record.status same
  have held : closed.entry? token.locator = some r :=
    (congrArg (OrderedMap.get? · token.locator) registry).trans gathers.entry
  rw [endFetching, if_neg (by rw [saved]; exact Status.noConfusion), nameAnonymous]
  split
  · refine (save_own (l := { closed with anonymous := none }) held ?_ _).trans ?_
    · exact fun unknown => by cases saved.symm.trans unknown
    · refine (if_pos ?_).trans same
      exact saved ▸ Status.le_refl _
  · exact same

/-- If nothing has been registered under the locator, its record is only told that the retrieval is over. -/
theorem ended_record (gathers : Gathers l token.locator r rs g)
    (retrieving : Retrieving l token.locator r) {closed : Loader} (records : closed.records = g.records)
    (own : l.ownIn? token.locator rs = none) :
    (closed.endFetching r).record r = { l.record r with status := .fetched } := by
  have same : closed.record r = l.record r := by
    rw [Loader.record, records]
    exact gathers.waiting own
  have fetching : closed.status r = .fetching := by
    rw [status, same]
    exact retrieving.fetching
  rw [record_endFetching fetching, if_pos rfl, same]

/-- The last registration without a name gets the locator if nothing has been registered under it. -/
theorem named_last (gathers : Gathers l token.locator r rs g) (retrieving : Retrieving l token.locator r)
    (closed : Loader) (registry : closed.registry = g.registry) (records : closed.records = g.records)
    (anonymous : closed.anonymous = g.anonymous) (config : closed.config = g.config)
    (resolver : closed.resolver = g.resolver) (own : l.ownIn? token.locator rs = none)
    {registration : Registration} (last : (l.unnamedIn rs).getLast? = some registration) :
    ((closed.endFetching r).nameAnonymous token.locator).record r =
      l.savedAs token.locator registration (l.record r) := by
  have ended := gathers.ended_record retrieving records own
  have held : Loader.entry? (closed.endFetching r) token.locator = some r :=
    ((closed.endFetching_rests r).entry _).trans
      ((congrArg (OrderedMap.get? · token.locator) registry).trans gathers.entry)
  have waits : (closed.endFetching r).anonymous = some registration.definition := by
    rw [(closed.endFetching_mute r).anonymous, anonymous, gathers.anonymous, last, Option.map_some]
  have quiet := (closed.endFetching_edits r).quiet id
  have fetched : Loader.status { closed.endFetching r with anonymous := none } r = .fetched :=
    congrArg Record.status ended
  simp only [nameAnonymous, waits]
  refine (save_own (l := { closed.endFetching r with anonymous := none }) held
    (by rw [fetched]; exact Status.noConfusion) _).trans ?_
  rw [if_neg (by rw [fetched]; decide), show Loader.record { closed.endFetching r with
    anonymous := none } r = { l.record r with status := .fetched } from ended]
  simp only [savedAs, Record.save, resolveDependencies, resolve, quiet.resolver, quiet.config, config,
    resolver, gathers.quiet.resolver, gathers.quiet.config]

/-- Where nothing waits for a name, the record has been retrieved in vain so far. -/
theorem named_nothing (gathers : Gathers l token.locator r rs g)
    (retrieving : Retrieving l token.locator r) (closed : Loader)
    (records : closed.records = g.records) (anonymous : closed.anonymous = g.anonymous)
    (own : l.ownIn? token.locator rs = none) (nothing : l.unnamedIn rs = []) :
    (closed.endFetching r).nameAnonymous token.locator = closed.endFetching r ∧
      (closed.endFetching r).record r = { l.record r with status := .fetched } := by
  have none : (closed.endFetching r).anonymous = none := by
    rw [(closed.endFetching_mute r).anonymous, anonymous, gathers.anonymous, nothing, List.getLast?_nil,
      Option.map_none]
  refine ⟨?_, gathers.ended_record retrieving records own⟩
  simp only [nameAnonymous, none]

/-- The end of a retrieval makes of what was registered what it should. -/
theorem packs (gathers : Gathers l token.locator r rs g) (retrieving : Retrieving l token.locator r) :
    Packs l token.locator r rs (g.finishFetch token).1 := by
  let closed := (g.note (.fetched token.locator token.resource)).closeRetrieval token
  have sound : Sound closed :=
    ((g.note_orderly _).trans (closeRetrieval_orderly _ token) gathers.sound).1
  have held : closed.entry? token.locator = some r := gathers.entry
  refine ⟨fun registration own => ?_, fun own registration last => ?_, fun own nothing k named => ?_,
    fun empty => ?_, (g.finishFetch_empties token).2.2.trans gathers.reports⟩
  · have saved := gathers.named_saved closed rfl rfl own
    exact gathers.brings retrieving closed rfl rfl (settle_saved held saved rfl _)
  · have saved := gathers.named_last retrieving closed rfl rfl rfl rfl rfl own last
    exact gathers.brings retrieving closed rfl rfl (settle_saved held saved rfl _)
  · obtain ⟨unnamed, ended⟩ := gathers.named_nothing retrieving closed rfl rfl own nothing
    obtain ⟨first, remembered, there⟩ := gathers.first k named
    have other : token.locator ≠ k := by
      rintro rfl
      obtain ⟨registration, member, here⟩ := List.exists_of_findSome?_eq_some named
      have missed := List.find?_eq_none.mp own registration member
      simp [here] at missed
    have apart : first ≠ r := fun here => other (gathers.lone k (here ▸ there)).symm
    obtain ⟨entry, second⟩ := settle_taken sound held unnamed (congrArg Record.status ended) remembered
      apart ((g.ledger.inFlight.get? token.resource).getD [])
    exact ⟨first, apart, entry _ (.inl rfl), entry k (.inr there), second⟩
  · subst empty
    obtain ⟨unnamed, ended⟩ := gathers.named_nothing retrieving closed rfl rfl rfl rfl
    have named : ((closed.endFetching r).nameAnonymous token.locator).record r =
        { l.record r with status := .fetched } := by
      rw [unnamed]
      exact ended
    obtain ⟨entry, same | ⟨saved, -⟩⟩ := settle_kept held named (Status.le_refl _)
      (.inr (gathers.unnamed rfl)) ((g.ledger.inFlight.get? token.resource).getD [])
    · exact ⟨entry, same⟩
    · exact absurd saved (by decide : ¬ Status.saved ≤ .fetched)

end Gathers

end Loader

end ModuleLoader
