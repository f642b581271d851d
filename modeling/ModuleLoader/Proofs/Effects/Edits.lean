import Mathlib.Logic.Relation
import ModuleLoader.Machine.Step
import ModuleLoader.Proofs.Effects

/-! The single edits that registering and retrieving are made of. Each operation is taken apart into them here,
once; what no edit touches, or every edit moves in one direction, needs no other proof for any operation. -/
namespace ModuleLoader

open Relation (ReflTransGen)

namespace Loader

/-- What edits may do besides moving records and locators. -/
structure Permit where
  reports : Prop := False
  /-- The definitions that may be saved, or put aside until they are named. -/
  saves : Definition → Prop := fun _ => False
  /-- The ledger may be written. -/
  books : Prop := False

/-- One edit, as far as it is permitted. -/
inductive Edit (permit : Permit) (l : Loader) : Loader → Prop where
  | noted (e : Event) (plain : e.isReport = false) : Edit permit l (l.note e)
  | reported (d : Diagnostic) (may : permit.reports) : Edit permit l (l.emit d)
  | made (locator : Locator) {s : Status} (early : s ≤ .fetching) : Edit permit l (l.newRecord locator s).1
  | pointed (locator : Locator) (r : RecordId) : Edit permit l (l.point locator r)
  | fetched {r : RecordId} (fetching : l.status r = .fetching) : Edit permit l (l.setStatus r .fetched)
  | saved {r : RecordId} {definition : Definition} (dependencies : List Locator) (below : l.status r < .saved)
      (may : permit.saves definition) : Edit permit l (l.updateRecord r (·.save definition dependencies))
  | seconded (r : RecordId) (locator : Locator) : Edit permit l (l.setSecondLocator r locator)
  | parked (waits : Option Definition) (may : ∀ definition, waits = some definition → permit.saves definition) :
      Edit permit l { l with anonymous := waits }
  | remembered (first : Option RecordId) : Edit permit l { l with firstNamed := first }
  | booked (ledger : Ledger) (may : permit.books) : Edit permit l { l with ledger }

/-- Any number of edits. -/
def Edits (permit : Permit) : Loader → Loader → Prop := ReflTransGen (Edit permit)

namespace Edits

variable {permit wider : Permit} {a b c l l' : Loader}

theorem refl (l : Loader) : Edits permit l l := ReflTransGen.refl

theorem one (edit : Edit permit l l') : Edits permit l l' := ReflTransGen.single edit

theorem trans (ab : Edits permit a b) (bc : Edits permit b c) : Edits permit a c := ReflTransGen.trans ab bc

theorem edit (ab : Edits permit a b) (bc : Edit permit b c) : Edits permit a c := ReflTransGen.tail ab bc

/-- What holds of every edit holds of any number of them. -/
theorem lift {R : Loader → Loader → Prop} (edits : Edits permit l l') (refl : ∀ l, R l l)
    (trans : ∀ {a b c}, R a b → R b c → R a c) (each : ∀ {a b}, Edit permit a b → R a b) : R l l' := by
  induction edits with
  | refl => exact refl l
  | tail _ edit ih => exact trans ih (each edit)

theorem wide (edits : Edits permit l l') (reports : permit.reports → wider.reports)
    (saves : ∀ definition, permit.saves definition → wider.saves definition)
    (books : permit.books → wider.books) : Edits wider l l' := by
  refine edits.lift .refl .trans fun edit => .one ?_
  cases edit with
  | noted e plain => exact .noted e plain
  | reported d may => exact .reported d (reports may)
  | made locator early => exact .made locator early
  | pointed locator r => exact .pointed locator r
  | fetched fetching => exact .fetched fetching
  | saved dependencies below may => exact .saved dependencies below (saves _ may)
  | seconded r locator => exact .seconded r locator
  | parked waits may => exact .parked waits fun definition same => saves _ (may definition same)
  | remembered first => exact .remembered first
  | booked ledger may => exact .booked ledger (books may)

/-- What needs no permission. -/
theorem free (edits : Edits {} l l') : Edits permit l l' := edits.wide False.elim (fun _ => False.elim) False.elim

theorem foldl {α : Type} {f : Loader → α → Loader} {as : List α} (each : ∀ l, ∀ a ∈ as, Edits permit l (f l a))
    (l : Loader) : Edits permit l (as.foldl f l) := by
  induction as generalizing l with
  | nil => exact .refl l
  | cons a as ih =>
    exact (each l a (List.mem_cons_self ..)).trans (ih (fun l b member => each l b (List.mem_cons_of_mem _ member)) _)

/-- No edit concerns loads in progress, apart from the ledger. -/
theorem quiet (edits : Edits permit l l') (unbooked : ¬ permit.books) : Quiet l l' := by
  refine edits.lift .refl .trans fun edit => ?_
  cases edit with
  | reported d => exact emit_quiet _ d
  | booked ledger may => exact absurd may unbooked
  | _ => exact ⟨rfl, rfl, rfl, rfl⟩

end Edits

/-! Records and reports. -/

variable (l : Loader)

theorem ensure_edits (locator : Locator) {s : Status} (early : s ≤ .fetching) :
    Edits {} l (l.ensure locator s).1 := by
  unfold ensure
  split
  · exact .refl l
  · exact (Edits.one (.made locator early)).edit (.pointed locator _)

theorem reportAll_edits (cs : List Condition) : Edits { reports := True } l (l.reportAll cs) :=
  .foldl (fun _ _ _ => .one (.reported _ trivial)) l

/-! Registering. -/

theorem save_edits (locator : Locator) (definition : Definition) :
    Edits { saves := (· = definition) } l (l.save locator definition).1 := by
  have made : Edits { saves := (· = definition) } l (l.ensure locator .unknown).1 :=
    (l.ensure_edits locator (by decide)).free
  unfold save
  dsimp only
  split
  · exact made.edit (.noted _ rfl)
  · rename_i below
    exact made.edit (.saved _ (Status.not_le.mp below) rfl)

theorem park_edits (definition : Definition) :
    Edits { reports := True, saves := (· = definition) } l (l.park definition) := by
  have parked : Edits { reports := True, saves := (· = definition) } l { l with anonymous := some definition } :=
    .one (.parked _ fun _ same => (Option.some.inj same).symm)
  unfold park
  dsimp only
  split
  · exact parked.edit (.reported _ trivial)
  · exact parked

theorem dropTakeover_edits (locator : Locator) : Edits {} l (l.dropTakeover locator) := by
  unfold dropTakeover
  split
  · split
    · exact (Edits.one (.made locator (by decide))).edit (.pointed locator _)
    · exact .refl l
  · exact .refl l

theorem takePlaceholder_edits (locator : Locator) (r : RecordId) : Edits {} l (l.takePlaceholder locator r) := by
  unfold takePlaceholder
  split
  · split
    · exact (Edits.one (.pointed locator r)).edit (.seconded r locator)
    · exact .refl l
  · exact .refl l

theorem rememberFirst_edits (r : RecordId) : Edits {} l (l.rememberFirst r) := by
  unfold rememberFirst
  split
  · exact .one (.remembered _)
  · exact .refl l

theorem register_edits (registration : Registration) (derived : Option Locator) :
    Edits { reports := True, saves := (· = registration.definition) } l (l.register registration derived) := by
  unfold register
  dsimp only
  split
  · exact l.park_edits _
  · rename_i locator _
    have cleared : Edits { saves := (· = registration.definition) } l
        (if derived = some locator then l.dropTakeover locator else l) := by
      split
      · exact (l.dropTakeover_edits locator).free
      · exact .refl l
    have saved : Edits { reports := True, saves := (· = registration.definition) } l _ :=
      (cleared.trans (save_edits _ locator registration.definition)).wide False.elim (fun _ => id) id
    cases derived with
    | some derived => exact saved.trans (takePlaceholder_edits _ derived _).free
    | none => exact saved.trans (rememberFirst_edits _ _).free

theorem defineDerived_edits (registration : Registration) (derived : Option Locator) :
    Edits { reports := True, saves := (· = registration.definition) } l
      (l.defineDerived registration derived) := by
  unfold defineDerived
  dsimp only
  split
  · exact (Edits.one (.reported _ trivial)).trans (register_edits _ _ _)
  · exact l.register_edits _ _

/-! Retrieving. -/

theorem share_edits (locator : Locator) (target : RecordId) : Edits {} l (l.share locator target) := by
  have pointed : Edits {} l ((l.note (.shared locator (l.record target).locator)).point locator target) :=
    (Edits.one (.noted _ rfl)).edit (.pointed locator target)
  unfold share
  dsimp only
  split
  · split
    · exact pointed.edit (.seconded target locator)
    · exact pointed
  · exact .refl l

theorem awaitResource_edits (waiter : Waiter) : Edits { books := True } l (l.awaitResource waiter).1 := by
  unfold awaitResource
  dsimp only
  split
  · exact (l.share_edits _ _).free
  · split
    · exact ((Edits.one (.booked _ trivial)).edit (.noted _ rfl)).edit (.booked _ trivial)
    · exact ((Edits.one (.booked _ trivial)).edit (.booked _ trivial)).edit (.noted _ rfl)

theorem endFetching_edits (r : RecordId) : Edits {} l (l.endFetching r) := by
  unfold endFetching
  split
  · rename_i fetching
    exact .one (.fetched fetching)
  · exact .refl l

/-- What is named at the end of a retrieval was waiting for it. -/
theorem nameAnonymous_edits (locator : Locator) :
    Edits { saves := (l.anonymous = some ·) } l (l.nameAnonymous locator) := by
  unfold nameAnonymous
  split
  · rename_i definition waits
    have taken : Edits { saves := (l.anonymous = some ·) } l { l with anonymous := none } :=
      .one (.parked none fun _ same => by cases same)
    exact taken.trans ((save_edits _ locator definition).wide id (fun _ same => same ▸ waits) id)
  · exact .refl l

theorem takeFirstNamed_edits (locator : Locator) (r : RecordId) : Edits {} l (l.takeFirstNamed locator r) := by
  unfold takeFirstNamed
  split
  · rename_i first _
    have taken : Edits {} l { l with firstNamed := none } := .one (.remembered none)
    dsimp only
    split
    · exact (taken.edit (.pointed locator first)).edit (.seconded first locator)
    · exact taken
  · exact .refl l

theorem settleJoined_edits (target : RecordId) (locator : Locator) : Edits {} l (l.settleJoined target locator) := by
  unfold settleJoined
  split
  · exact l.share_edits locator target
  · split
    · exact l.endFetching_edits _
    · exact .refl l

theorem endFetching_anonymous (r : RecordId) : (l.endFetching r).anonymous = l.anonymous := by
  unfold endFetching
  split <;> rfl

theorem ensure_anonymous (locator : Locator) (s : Status) : (l.ensure locator s).1.anonymous = l.anonymous := by
  unfold ensure
  split <;> rfl

theorem settle_edits (token : FetchToken) (waiters : List Waiter) :
    Edits { saves := (l.anonymous = some ·) } l (l.settle token waiters) := by
  have made := l.ensure_edits token.locator (s := .fetching) (by decide)
  have waits := l.ensure_anonymous token.locator .fetching
  unfold settle
  dsimp only
  generalize l.ensure token.locator .fetching = start at *
  obtain ⟨l₁, r⟩ := start
  dsimp only at *
  have ended : Edits { saves := (l.anonymous = some ·) } l (l₁.endFetching r) :=
    (made.trans (l₁.endFetching_edits r)).free
  have named := ended.trans ((nameAnonymous_edits _ token.locator).wide id
    (fun _ same => ((l₁.endFetching_anonymous r).trans waits).symm.trans same) id)
  have taken := named.trans (takeFirstNamed_edits _ token.locator r).free
  split
  · exact taken.trans (.foldl (fun l locator _ => (l.settleJoined_edits _ locator).free) _)
  · exact taken

theorem finishFetch_edits (token : FetchToken) :
    Edits { saves := (l.anonymous = some ·), books := True } l (l.finishFetch token).1 :=
  ((Edits.one (.noted (.fetched token.locator token.resource) rfl)).edit (.booked _ trivial)).trans
    ((settle_edits _ token _).wide id (fun _ => id) False.elim)

theorem settledEntry_edits (locator : Locator) : Edits { reports := True } l (l.settledEntry locator).1 := by
  unfold settledEntry
  split
  · exact .refl l
  · split
    · exact .refl l
    · exact l.reportAll_edits _

end Loader

/-! Answering. -/

namespace World

open Loader (Permit Edits)

/-- What the table of the fetcher may bring into the loader. -/
def permit (w : World) : Permit where
  reports := True
  saves definition := ∃ file ∈ w.fetcher.files, definition = file.2.definition

variable (w : World)

theorem register_permitted {resource : PhysicalId} {registration : Registration}
    (member : registration ∈ w.fetcher.registrations resource) (l : Loader) (derived : Option Locator) :
    Edits w.permit l (l.register registration derived) ∧ Edits w.permit l (l.defineDerived registration derived) := by
  obtain ⟨file, among, read⟩ := List.mem_filterMap.mp member
  obtain ⟨-, same⟩ := Option.ite_none_right_eq_some.mp read
  have given (definition : Definition) (registered : definition = registration.definition) :
      w.permit.saves definition := ⟨file, among, Option.some.inj same ▸ registered⟩
  exact ⟨(l.register_edits registration derived).wide id given id,
    (l.defineDerived_edits registration derived).wide id given id⟩

theorem evaluate_edits (resource : PhysicalId) : Edits w.permit w.loader (w.evaluate resource).loader :=
  .foldl (fun l _ member => (w.register_permitted member l none).1) _

theorem evaluateDerived_edits (token : FetchToken) : Edits w.permit w.loader (w.evaluateDerived token).loader :=
  .foldl (fun l _ member => (w.register_permitted member l _).2) _

theorem retrieve_edits (token : FetchToken) : Edits w.permit w.loader (w.retrieve token).1.loader := by
  unfold retrieve
  dsimp only
  split
  · exact w.evaluate_edits _
  · exact .refl _
  · exact .refl _
  · exact w.evaluateDerived_edits _
  · exact .refl _
  · exact .one (.reported _ trivial)

theorem enter_edits (locator : Locator) (b : BarrierId) :
    Edits { w.permit with books := True } w.loader (w.enter locator b).1.loader := by
  have made : Edits { w.permit with books := True } w.loader (w.loader.ensure locator .fetching).1 :=
    (w.loader.ensure_edits locator (by decide)).free
  have awaited := made.trans (((w.loader.ensure locator .fetching).1.awaitResource_edits ⟨locator, b⟩).wide
    (fun _ => trivial) (fun _ => False.elim) id)
  unfold enter
  dsimp only
  generalize ((w.loader.ensure locator .fetching).1.awaitResource ⟨locator, b⟩) = waits at *
  obtain ⟨l, start⟩ := waits
  split
  · exact made
  · cases start with
    | ready | joined => exact awaited
    | started token =>
      exact awaited.trans ((retrieve_edits { w with loader := l } token).wide id (fun _ => id) False.elim)

end World

end ModuleLoader
