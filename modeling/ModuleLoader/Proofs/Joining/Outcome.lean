import ModuleLoader.Proofs.Derivation
import ModuleLoader.Proofs.Sharing.Resources

/-! What a retrieval makes of a locator beside its own, whether that one waits for the end of the retrieval
or is asked for later. Something may have been left from before, which then belongs to this retrieval. -/
namespace ModuleLoader.Loader

variable {l g : Loader} {k : Locator} {r : RecordId} {rs : List Registration}

/-- Nothing is registered for a locator: if it stands for a record, that one is being retrieved, and no
other locator stands for it. -/
def Vacant (l : Loader) (k : Locator) : Prop :=
  ∀ r, l.entry? k = some r → l.status r = .fetching ∧ ∀ j, l.entry? j = some r → j = k

theorem vacant_of_absent (absent : l.entry? k = none) : l.Vacant k := fun _ held => by
  cases absent.symm.trans held

/-- Registrations have been made while something was being retrieved. -/
structure Registers (l : Loader) (rs : List Registration) (g : Loader) : Prop where
  quiet : Quiet l g
  sound : Sound g
  rises : ∀ r, l.status r ≤ g.status r
  held : ∀ {k r}, l.entry? k = some r → g.entry? k = some r
  old : ∀ {k r}, g.entry? k = some r → l.status r ≠ .unknown → l.entry? k = some r
  alone : ∀ {j k r}, l.status r = .unknown → g.entry? j = some r → g.entry? k = some r → j = k
  missed : ∀ {k}, l.ownIn? k rs = none → g.entry? k = l.entry? k
  waiting : ∀ {k r}, l.ownIn? k rs = none → l.Vacant k → l.entry? k = some r → g.status r = .fetching
  saved : ∀ {k}, l.ownIn? k rs ≠ none → ∃ r, g.entry? k = some r ∧ .saved ≤ g.status r
  anonymous : g.anonymous = none ↔ l.anonymous = none ∧ l.unnamedIn rs = []
  /-- What was remembered before is still remembered. -/
  firstNamed : g.firstNamed = l.firstNamed.or ((l.firstIn? rs).bind g.entry?)

/-- What is registered first by name is registered. -/
theorem own_of_firstIn (first : l.firstIn? rs = some k) : l.ownIn? k rs ≠ none := by
  obtain ⟨registration, member, named⟩ := List.exists_of_findSome?_eq_some first
  intro none
  exact List.find?_eq_none.mp none registration member (decide_eq_true named)

theorem nil_of_nothing (unnamed : l.unnamedIn rs = []) (first : l.firstIn? rs = none) : rs = [] := by
  refine List.eq_nil_iff_forall_not_mem.mpr fun registration member => ?_
  have nameless := List.findSome?_eq_none_iff.mp first registration member
  exact List.filter_eq_nil_iff.mp unnamed registration member (decide_eq_true nameless)

namespace Registers

theorem nil (sound : Sound l) : Registers l [] l := by
  refine ⟨.refl l, sound, fun _ => Status.le_refl _, id, fun there _ => there, fun {j k r} new there _ => ?_,
    fun _ => rfl, fun _ vacant there => (vacant _ there).1, fun own => absurd rfl own, ?_, ?_⟩
  · exact absurd new (sound.known there)
  · exact ⟨fun none => ⟨none, rfl⟩, And.left⟩
  · exact (Option.or_none).symm

/-- A registration that names nothing waits. -/
theorem park (registers : Registers l rs g) {registration : Registration}
    (unnamed : l.named? registration = none) :
    Registers l (rs ++ [registration]) (g.define registration) := by
  have same : g.define registration = g.park registration.definition :=
    define_unnamed ((registers.quiet.named registration).trans unnamed)
  have own (k : Locator) := ownIn_unnamed unnamed k rs
  have first := firstIn_unnamed unnamed rs
  have parked := unnamedIn_unnamed unnamed rs
  have parks := g.park_parks registration.definition
  have status : Loader.status (g.park registration.definition) = g.status :=
    funext fun r => congrArg Record.status (congrFun parks.record r)
  rw [same]
  refine ⟨registers.quiet.trans ((g.park_edits _).quiet id), (g.park_orderly _ registers.sound).1, ?_, ?_, ?_, ?_, ?_,
    ?_, ?_, ?_, ?_⟩
  · rw [status]
    exact registers.rises
  · rw [parks.entry]
    exact registers.held
  · rw [parks.entry]
    exact registers.old
  · rw [parks.entry]
    exact registers.alone
  · intro k
    rw [own, parks.entry]
    exact registers.missed
  · intro k r
    rw [own, status]
    exact registers.waiting
  · intro k
    rw [own, parks.entry, status]
    exact registers.saved
  · simp [parks.anonymous, parked]
  · rw [parks.firstNamed, first, parks.entry]
    exact registers.firstNamed

/-- A registration by name is saved, and it is remembered if nothing is. -/
theorem name (registers : Registers l rs g) (flying : l.ledger.inFlight.isEmpty = false)
    {registration : Registration} {k : Locator} (named : l.named? registration = some k) :
    Registers l (rs ++ [registration]) (g.define registration) := by
  have stores := save_stores registers.sound k registration.definition
  have saves := g.save_saves k registration.definition (Clears.refl registers.sound k).inside
  have mute := g.save_mute k registration.definition
  have same := define_flying ((registers.quiet.named registration).trans named)
    (registers.quiet.ledger ▸ flying)
  have sound := (g.register_orderly registration none registers.sound).1
  have quiet := registers.quiet.trans ((g.register_edits registration none).quiet id)
  rw [show g.register registration none = _ from same] at sound quiet
  have own (j : Locator) := ownIn_named named j rs
  have first := firstIn_named named rs
  have parked := unnamedIn_named named rs
  rw [same]
  generalize (g.save k registration.definition).1 = g', (g.save k registration.definition).2 = x at *
  have entry := stores.entry
  have here {r : RecordId} (known : g.status r ≠ .unknown) (stands : x = r) : g.entry? k = some r := by
    subst stands
    exact stores.stands known
  have missing {j : Locator} (none : l.ownIn? j (rs ++ [registration]) = none) :
      l.ownIn? j rs = .none ∧ k ≠ j := by
    rw [own, Option.or_eq_none_iff] at none
    refine ⟨none.1, fun same => ?_⟩
    rw [if_pos same] at none
    cases none.2
  refine ⟨quiet, sound, fun r => ?_, fun {j r} held => ?_, fun {j r} held known => ?_,
    fun {i j r} new one other => ?_, fun {j} none => ?_, fun {j r} none vacant held => ?_, fun {j} some => ?_,
    ?_, ?_⟩
  · exact Status.le_trans (registers.rises r) (saves.rises r)
  · exact stores.keeps (registers.held held)
  · have later : g.status r ≠ .unknown := Status.ne_unknown_of_le known (registers.rises r)
    have held : (if k = j then some x else g.entry? j) = some r := (entry j).symm.trans held
    split at held
    · rename_i same
      exact same ▸ registers.old (here later (Option.some.inj held)) known
    · exact registers.old held known
  · have one : (if k = i then some x else g.entry? i) = some r := (entry i).symm.trans one
    have other : (if k = j then some x else g.entry? j) = some r := (entry j).symm.trans other
    split at one <;> split at other
    · rename_i left right
      exact left.symm.trans right
    · rename_i left _
      exact left.symm.trans (registers.alone new
        (here (registers.sound.known other) (Option.some.inj one)) other)
    · rename_i _ right
      exact (registers.alone new one
        (here (registers.sound.known one) (Option.some.inj other))).trans right
    · exact registers.alone new one other
  · obtain ⟨none, other⟩ := missing none
    exact (entry j).trans ((if_neg other).trans (registers.missed none))
  · obtain ⟨none, other⟩ := missing none
    have waits := registers.waiting none vacant held
    have known : g.status r ≠ .unknown := by rw [waits]; decide
    have apart : r ≠ x := fun same => other <| by
      have there := registers.old (here known same.symm) (by rw [(vacant r held).1]; decide)
      exact (vacant r held).2 k there
    exact (congrArg Record.status (stores.others r known apart) :).trans waits
  · by_cases there : k = j
    · exact ⟨x, (entry j).trans (if_pos there), saves.saved⟩
    · rw [own, if_neg there, Option.or_none] at some
      obtain ⟨r, held, saved⟩ := registers.saved some
      exact ⟨r, stores.keeps held, Status.le_trans saved (saves.rises r)⟩
  · rw [parked, ← registers.anonymous]
    exact iff_of_eq (congrArg (· = none) mute.anonymous)
  · change g'.firstNamed.or (some x) = _
    rw [mute.firstNamed, registers.firstNamed, first, Option.or_assoc]
    cases before : l.firstIn? rs with
    | some j =>
      obtain ⟨r, held, -⟩ := registers.saved (own_of_firstIn before)
      rw [Option.some_or, Option.bind_some, Option.bind_some, held, Option.some_or]
      exact congrArg _ (stores.keeps held).symm
    | none =>
      rw [Option.none_or, Option.bind_none, Option.none_or, Option.bind_some]
      exact congrArg _ ((entry k).trans (if_pos rfl)).symm

/-- All the registrations of a resource are made. -/
theorem all (sound : Sound l) (flying : l.ledger.inFlight.isEmpty = false) (rs : List Registration) :
    Registers l rs (rs.foldl define l) := by
  induction rs using List.reverseRecOn with
  | nil => exact .nil sound
  | append_singleton rs registration registers =>
    rw [List.foldl_append, List.foldl_cons, List.foldl_nil]
    cases named : l.named? registration with
    | none => exact registers.park named
    | some k => exact registers.name flying named

end Registers

/-! What the locator of a retrieval stands for when those who have joined are still to be settled. -/

section

variable (token : FetchToken) {first : RecordId}

theorem finishFetch_ended {x : RecordId} (held : g.entry? token.locator = some r)
    (found : Loader.entry? (g.ended token r) token.locator = some x) :
    (g.finishFetch token).1 = (g.joiners token).foldl (settleJoined · x) (g.ended token r) :=
  settle_held (l := (g.note (.fetched token.locator token.resource)).closeRetrieval token) held found _

/-- It stands for its own record if something has been saved there, or if something waits for a name. -/
theorem ended_saved (held : g.entry? token.locator = some r)
    (brought : .saved ≤ g.status r ∨ g.status r = .fetching ∧ g.anonymous ≠ none) :
    Loader.entry? (g.ended token r) token.locator = some r ∧ .saved ≤ (g.ended token r).status r := by
  let closed := (g.note (.fetched token.locator token.resource)).closeRetrieval token
  have found : Loader.entry? (closed.endFetching r) token.locator = some r :=
    ((closed.endFetching_rests r).entry _).trans held
  have saved : .saved ≤ ((closed.endFetching r).nameAnonymous token.locator).status r := by
    obtain saved | ⟨fetching, waits⟩ := brought
    · exact Status.le_trans saved (((closed.endFetching_loads r).trans
        (nameAnonymous_loads _ token.locator)).rises r)
    · have ended := record_endFetching (l := closed) fetching r
      rw [if_pos rfl] at ended
      obtain ⟨-, own, -⟩ := nameAnonymous_held found (congrArg Record.status ended)
      have still : (closed.endFetching r).anonymous ≠ none :=
        (closed.endFetching_mute r).anonymous.trans_ne waits
      rw [own, if_pos (Option.isSome_iff_ne_none.mpr still)]
      exact Status.le_refl _
  obtain ⟨registry, records⟩ := takeFirstNamed_other token.locator (r := r)
    (l := (closed.endFetching r).nameAnonymous token.locator)
    (.inl fun fetched => absurd saved (by rw [fetched]; decide))
  refine ⟨(congrArg (OrderedMap.get? · token.locator) registry).trans
    ((nameAnonymous_entry found _).trans found), ?_⟩
  rw [ended, status, record, records]
  exact saved

theorem ended_unnamed (fetching : g.status r = .fetching) (unnamed : g.anonymous = none) :
    let closed := (g.note (.fetched token.locator token.resource)).closeRetrieval token
    g.ended token r = Loader.takeFirstNamed (closed.endFetching r) token.locator r ∧
      (closed.endFetching r).status r = .fetched := by
  intro closed
  have same := record_endFetching (l := closed) fetching r
  rw [if_pos rfl] at same
  have none : (closed.endFetching r).anonymous = .none := (closed.endFetching_mute r).anonymous.trans unnamed
  refine ⟨?_, congrArg Record.status same⟩
  rw [ended, nameAnonymous, none]

/-- Otherwise it stands for the module that is remembered as the first. -/
theorem ended_first (sound : Sound g) (fetching : g.status r = .fetching) (unnamed : g.anonymous = none)
    (named : g.firstNamed = some first) :
    Loader.entry? (g.ended token r) token.locator = some first ∧
      .saved ≤ (g.ended token r).status first := by
  let closed := (g.note (.fetched token.locator token.resource)).closeRetrieval token
  obtain ⟨same, fetched⟩ := ended_unnamed token fetching unnamed
  have saved := sound.named named
  have apart : first ≠ r := by
    rintro rfl
    rw [fetching] at saved
    exact absurd saved (by decide)
  obtain ⟨-, gives⟩ := Loader.point_gives { closed.endFetching r with firstNamed := none }
    token.locator first
  rw [same, takeFirstNamed_taken ((closed.endFetching_mute r).firstNamed.trans named) fetched apart]
  refine ⟨(gives.entry _).trans (if_pos rfl), ?_⟩
  rw [gives.status]
  exact Status.le_trans saved ((closed.endFetching_rests r).rises first)

/-- Where there is nothing, it stands for a record that has been retrieved in vain. -/
theorem ended_bare (held : g.entry? token.locator = some r) (fetching : g.status r = .fetching)
    (unnamed : g.anonymous = none) (none : g.firstNamed = none) :
    Loader.entry? (g.ended token r) token.locator = some r ∧ (g.ended token r).status r = .fetched := by
  let closed := (g.note (.fetched token.locator token.resource)).closeRetrieval token
  obtain ⟨same, fetched⟩ := ended_unnamed token fetching unnamed
  obtain ⟨registry, records⟩ := takeFirstNamed_other token.locator (l := closed.endFetching r) (r := r)
    (.inr ((closed.endFetching_mute r).firstNamed.trans none))
  rw [same]
  refine ⟨(congrArg (OrderedMap.get? · token.locator) registry).trans
    (((closed.endFetching_rests r).entry _).trans held), ?_⟩
  rw [status, record, records]
  exact fetched

/-! Two locators. -/

/-- A retrieval has nothing to register, and nothing was left for it from before. -/
def BringsNothing (l : Loader) (rs : List Registration) : Prop :=
  rs = [] ∧ l.anonymous = none ∧ l.firstNamed = none

/-- All that a retrieval can hand to its locator is the module that it registers first, under another
one. -/
def Hands (l : Loader) (rs : List Registration) (locator k : Locator) : Prop :=
  l.ownIn? locator rs = none ∧ l.unnamedIn rs = [] ∧ l.anonymous = none ∧ l.firstNamed = none ∧
    l.firstIn? rs = some k

theorem Registers.firstNamed_iff (registers : Registers l rs g) (sound : Sound l) {x y : RecordId}
    (vacant : l.Vacant k) (held : g.entry? k = some y) (named : g.firstNamed = some x) :
    y = x ↔ l.firstNamed = none ∧ l.firstIn? rs = some k := by
  have first := registers.firstNamed.symm.trans named
  cases before : l.firstNamed with
  | some f =>
    rw [before, Option.some_or, Option.some.injEq] at first
    subst first
    have saved := sound.named before
    refine iff_of_false (fun same => ?_) fun none => by cases none.1
    have waits := (vacant f (registers.old (same ▸ held)
      (Status.ne_unknown_of_le (a := .saved) (by decide) saved))).1
    rw [waits] at saved
    exact absurd saved (by decide)
  | none =>
    rw [before, Option.none_or] at first
    obtain ⟨j, chosen, there⟩ := Option.bind_eq_some_iff.mp first
    rw [chosen, Option.some.injEq]
    refine ⟨fun same => ⟨rfl, ?_⟩, fun same => ?_⟩
    · subst same
      by_cases new : l.status y = .unknown
      · exact registers.alone new there held
      · exact (vacant y (registers.old held new)).2 j (registers.old there new)
    · exact Option.some.inj (held.symm.trans (same.2 ▸ there))

/-- What the locator of a retrieval comes to, and who has it too. -/
theorem Registers.ended (registers : Registers l rs g) (retrieving : Retrieving l token.locator r) :
    ∃ x, Loader.entry? (g.ended token r) token.locator = some x ∧ .fetched ≤ (g.ended token r).status x ∧
      (.saved ≤ (g.ended token r).status x ↔ ¬ l.BringsNothing rs) ∧
      ∀ {k y}, k ≠ token.locator → l.Vacant k → g.entry? k = some y →
        (y = x ↔ l.Hands rs token.locator k) := by
  have held := registers.held retrieving.entry
  have vacant : l.Vacant token.locator := fun x there => by
    cases retrieving.entry.symm.trans there
    exact ⟨retrieving.fetching, retrieving.lone⟩
  have waiting (own : l.ownIn? token.locator rs = none) : g.status r = .fetching :=
    registers.waiting own vacant retrieving.entry
  have apart {k : Locator} {y : RecordId} (other : k ≠ token.locator) (there : g.entry? k = some y) :
      y ≠ r := by
    rintro rfl
    refine other (retrieving.lone k (registers.old there ?_))
    rw [retrieving.fetching]
    decide
  by_cases brought : l.ownIn? token.locator rs ≠ none ∨ g.anonymous ≠ none
  · obtain ⟨found, saved⟩ := ended_saved token held <| by
      by_cases own : l.ownIn? token.locator rs = none
      · exact .inr ⟨waiting own, brought.resolve_left (not_not.mpr own)⟩
      · obtain ⟨x, there, saved⟩ := registers.saved own
        cases held.symm.trans there
        exact .inl saved
    refine ⟨r, found, Status.le_trans (by decide) saved, iff_of_true saved ?_,
      fun other _ there => iff_of_false (apart other there) ?_⟩
    · rintro ⟨rfl, empty, -⟩
      exact brought.elim (fun own => own rfl) fun waits => waits (registers.anonymous.mpr ⟨empty, rfl⟩)
    · rintro ⟨own, unnamed, empty, -⟩
      exact brought.elim (fun named => named own) fun waits => waits (registers.anonymous.mpr ⟨empty, unnamed⟩)
  rw [not_or, not_not, not_not] at brought
  obtain ⟨own, anonymous⟩ := brought
  obtain ⟨empty, unnamed⟩ := registers.anonymous.mp anonymous
  cases named : g.firstNamed with
  | some first =>
    obtain ⟨found, saved⟩ := ended_first token registers.sound (waiting own) anonymous named
    refine ⟨first, found, Status.le_trans (by decide) saved, iff_of_true saved ?_, fun _ vacant there => ?_⟩
    · rintro ⟨rfl, -, none⟩
      rw [registers.firstNamed, none] at named
      cases named
    · rw [registers.firstNamed_iff retrieving.sound vacant there named, Hands]
      exact ⟨fun first => ⟨own, unnamed, empty, first⟩, fun hands => hands.2.2.2⟩
  | none =>
    obtain ⟨found, fetched⟩ := ended_bare token held (waiting own) anonymous named
    rw [registers.firstNamed, Option.or_eq_none_iff] at named
    obtain ⟨none, nothing⟩ := named
    have unregistered : l.firstIn? rs = .none := by
      cases first : l.firstIn? rs with
      | none => rfl
      | some j =>
        obtain ⟨x, there, -⟩ := registers.saved (own_of_firstIn first)
        rw [first, Option.bind_some, there] at nothing
        cases nothing
    refine ⟨r, found, fetched ▸ Status.le_refl _, iff_of_false (by rw [fetched]; decide) ?_,
      fun other _ there => iff_of_false (apart other there) ?_⟩
    · exact not_not.mpr ⟨nil_of_nothing unnamed unregistered, empty, none⟩
    · rintro ⟨-, -, -, -, first⟩
      cases unregistered.symm.trans first

/-- Beside its own locator, the end of a retrieval changes nothing but what has joined it. -/
theorem Registers.spares (registers : Registers l rs g) (retrieving : Retrieving l token.locator r) :
    Spares token.locator g (g.ended token r) :=
  ended_spares (registers.held retrieving.entry) fun k there =>
    retrieving.lone k (registers.old there (by rw [retrieving.fetching]; decide))

theorem hands_something (hands : l.Hands rs token.locator k) : ¬ l.BringsNothing rs := by
  rintro ⟨rfl, -, -⟩
  obtain ⟨-, -, -, -, first⟩ := hands
  cases first

/-- Who has joined a retrieval is given what was brought, and keeps what is saved already. -/
theorem settleJoined_outcome {e : Loader} {x y : RecordId} (there : e.entry? k = some y)
    (known : e.status y ≠ .unknown) (fetched : .fetched ≤ e.status x) :
    (∀ j, j ≠ k → Loader.entry? (e.settleJoined x k) j = e.entry? j) ∧
      .fetched ≤ (e.settleJoined x k).status x ∧
      (.saved ≤ e.status x → e.status y < .saved → Loader.entry? (e.settleJoined x k) k = some x) ∧
      (e.status x < .saved ∨ .saved ≤ e.status y → Loader.entry? (e.settleJoined x k) k = some y ∧
        .fetched ≤ (e.settleJoined x k).status y) := by
  have free : e.isFreeFor k x = true ↔ y ≠ x ∧ e.status y < .saved := by simp [isFreeFor, there]
  unfold settleJoined
  split
  · rename_i saved
    have status (z : RecordId) : (e.share k x).status z = e.status z := congrArg Prod.snd (e.share_look k x z)
    refine ⟨fun j other => ?_, (status x).symm ▸ fetched, fun _ below => ?_, fun kept => ?_⟩
    · rw [share_entry, if_neg (other ·.1)]
    · have apart : y ≠ x := by
        rintro rfl
        exact absurd saved (Nat.not_le.mpr below)
      rw [share_entry, if_pos ⟨rfl, free.mpr ⟨apart, below⟩⟩]
    · have mine := kept.resolve_left (Nat.not_lt.mpr saved)
      rw [share_entry, if_neg fun given => Nat.not_le.mpr (free.mp given.2).2 mine, status]
      exact ⟨there, Status.le_trans (by decide) mine⟩
  · rename_i below
    rw [there]
    have rests := e.endFetching_rests y
    refine ⟨fun j _ => rests.entry j, Status.le_trans fetched (rests.rises x), fun saved => absurd saved below,
      fun _ => ⟨(rests.entry k).trans there, endFetching_fetched known⟩⟩

/-- A locator that has joined gets what was brought, unless something is registered under it. -/
theorem Registers.joined (registers : Registers l rs g) (retrieving : Retrieving l token.locator r)
    (other : k ≠ token.locator) (vacant : l.Vacant k) (waits : (l.entry? k).isSome = true)
    (joiners : g.joiners token = [k]) :
    ∃ x y, Loader.entry? (g.finishFetch token).1 token.locator = some x ∧
      Loader.entry? (g.finishFetch token).1 k = some y ∧ .fetched ≤ (g.finishFetch token).1.status x ∧
      .fetched ≤ (g.finishFetch token).1.status y ∧
      (x = y ↔ ¬ l.BringsNothing rs ∧ (l.ownIn? k rs = none ∨ l.Hands rs token.locator k)) := by
  obtain ⟨x, found, fetched, saved_iff, takes⟩ := registers.ended token retrieving
  obtain ⟨y, waiting⟩ := Option.isSome_iff_exists.mp waits
  have there := registers.held waiting
  have spares := registers.spares token retrieving
  have status : (g.ended token r).status y = g.status y := congrArg Prod.snd (spares.look k y other there)
  obtain ⟨beside, still, shares, keeps⟩ := settleJoined_outcome ((spares.entry k other).trans there)
    (status ▸ registers.sound.known there) fetched
  rw [finishFetch_ended token (registers.held retrieving.entry) found, joiners, List.foldl_cons, List.foldl_nil]
  have here := (beside _ other.symm).trans found
  by_cases own : l.ownIn? k rs = none
  · have below : (g.ended token r).status y < .saved := by
      rw [status, registers.waiting own vacant waiting]
      decide
    by_cases saved : .saved ≤ (g.ended token r).status x
    · exact ⟨x, x, here, shares saved below, still, still, iff_of_true rfl ⟨saved_iff.mp saved, .inl own⟩⟩
    · obtain ⟨kept, done⟩ := keeps (.inl (Nat.not_le.mp saved))
      refine ⟨x, y, here, kept, still, done, iff_of_false (fun same => ?_) fun both => ?_⟩
      · exact mt saved_iff.mpr saved (hands_something token ((takes other vacant there).mp same.symm))
      · exact saved (saved_iff.mpr both.1)
  · obtain ⟨z, held, mine⟩ := registers.saved own
    cases there.symm.trans held
    obtain ⟨kept, done⟩ := keeps (.inr (status.symm ▸ mine))
    refine ⟨x, y, here, kept, still, done, eq_comm.trans ((takes other vacant there).trans ?_)⟩
    exact ⟨fun hands => ⟨hands_something token hands, .inr hands⟩, fun both => both.2.resolve_left own⟩

/-- A locator that nobody has asked for is left as it is, and so is what is registered under it. -/
theorem Registers.unasked (registers : Registers l rs g) (retrieving : Retrieving l token.locator r)
    (absent : l.entry? k = none) (joiners : g.joiners token = []) :
    ∃ x, Loader.entry? (g.finishFetch token).1 token.locator = some x ∧
      .fetched ≤ (g.finishFetch token).1.status x ∧
      (l.ownIn? k rs = none → Loader.entry? (g.finishFetch token).1 k = none) ∧
      (l.ownIn? k rs ≠ none → ∃ y, Loader.entry? (g.finishFetch token).1 k = some y ∧
        .fetched ≤ (g.finishFetch token).1.status y ∧ (x = y ↔ l.Hands rs token.locator k)) := by
  obtain ⟨x, found, fetched, -, takes⟩ := registers.ended token retrieving
  have spares := registers.spares token retrieving
  have other : k ≠ token.locator := by
    rintro rfl
    cases absent.symm.trans retrieving.entry
  rw [finishFetch_ended token (registers.held retrieving.entry) found, joiners, List.foldl_nil]
  refine ⟨x, found, fetched, fun own => ?_, fun own => ?_⟩
  · rw [spares.entry k other, registers.missed own, absent]
  · obtain ⟨y, there, saved⟩ := registers.saved own
    have status : (g.ended token r).status y = g.status y := congrArg Prod.snd (spares.look k y other there)
    refine ⟨y, (spares.entry k other).trans there, ?_,
      eq_comm.trans (takes other (vacant_of_absent absent) there)⟩
    exact status.symm ▸ Status.le_trans (by decide) saved

end

end ModuleLoader.Loader
