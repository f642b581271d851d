import Mathlib.Data.List.Nodup
import ModuleLoader.Proofs.Derivation.Registering
import ModuleLoader.Proofs.Packages

/-! Registrations on behalf of a locator agree with those that wait for the retrieval to end. Either way the
locator comes to stand for what the resource registers under it, and otherwise for the first module that the
resource registers, unless this one was ready before: then it keeps the locator. -/
namespace ModuleLoader

namespace Loader

/-- All registrations of a resource are made on behalf of a locator. -/
def derive (l : Loader) (locator : Locator) (rs : List Registration) : Loader :=
  rs.foldl (fun l registration => l.defineDerived registration (some locator)) l

/-- The first registration is for another locator whose module is ready, and a later one is the locator's
own. -/
inductive Overtakes (l : Loader) (locator : Locator) : List Registration → RecordId → Registration → Prop
  | intro {first own : Registration} {rest : List Registration} {x : RecordId}
      (other : l.aim locator first ≠ locator) (held : l.entry? (l.aim locator first) = some x)
      (ready : .ready ≤ l.status x) (member : own ∈ rest) (named : l.aim locator own = locator) :
      Overtakes l locator (first :: rest) x own

section

variable {l d g : Loader} {locator : Locator} {r x : RecordId} {rs : List Registration}

/-- What has been saved for the locator stays while the other registrations are made. -/
theorem derive_rest (quiet : Quiet l d) (sound : Sound d) (held : d.entry? locator = some x)
    (saved : .saved ≤ d.status x) (others : ∀ registration ∈ rs, l.aim locator registration ≠ locator) :
    Quiet l (d.derive locator rs) ∧ Sound (d.derive locator rs) ∧
      Loader.entry? (d.derive locator rs) locator = some x ∧ (d.derive locator rs).record x = d.record x ∧
      ∀ k y, k ≠ locator → d.entry? k = some y → Loader.entry? (d.derive locator rs) k = some y := by
  induction rs generalizing d with
  | nil => exact ⟨quiet, sound, held, rfl, fun _ _ _ there => there⟩
  | cons registration rs ih =>
    obtain ⟨other, others⟩ := List.forall_mem_cons.mp others
    obtain ⟨there, same, kept⟩ := derive_next sound held saved (quiet.aim locator registration ▸ other)
    obtain ⟨quiet, sound, held, record, entry⟩ := ih
      (quiet.trans ((d.defineDerived_edits registration (some locator)).quiet id))
      (d.defineDerived_orderly registration (some locator) sound).1 there
      (by rw [status, same]; exact saved) others
    exact ⟨quiet, sound, held, record.trans same,
      fun k y apart found => entry k y apart (kept k y apart found)⟩

/-- What the locator stands for when all registrations have been made on its behalf. -/
inductive Derives (l : Loader) (locator : Locator) (rs : List Registration) (d : Loader) (x : RecordId) :
    Prop where
  /-- The module that was registered first. -/
  | taken (first : Registration) (rest : List Registration) (same : rs = first :: rest)
      (others : ∀ registration ∈ rs, l.aim locator registration ≠ locator)
      (there : d.entry? (l.aim locator first) = some x)
  | own (registration : Registration) (member : registration ∈ rs)
      (named : l.aim locator registration = locator)
      (look : d.look x = (l.offer locator registration.definition, .saved))
      (early : ∀ y own, ¬ l.Overtakes locator rs y own)
  | late (own : Registration) (overtakes : l.Overtakes locator rs x own) (look : d.look x = l.look x)

theorem derive_append (l : Loader) (locator : Locator) (before after : List Registration) :
    l.derive locator (before ++ after) = Loader.derive (l.derive locator before) locator after :=
  List.foldl_append

theorem derive_cons (l : Loader) (locator : Locator) (first : Registration) (rest : List Registration) :
    l.derive locator (first :: rest) = Loader.derive (l.defineDerived first (some locator)) locator rest :=
  rfl

/-- The locator's own module comes first. -/
theorem derives_early (retrieving : Retrieving l locator r) {first : Registration}
    {rest : List Registration} (named : l.aim locator first = locator)
    (others : ∀ registration ∈ rest, l.aim locator registration ≠ locator) :
    ∃ x, Loader.entry? (l.derive locator (first :: rest)) locator = some x ∧
      .saved ≤ (l.derive locator (first :: rest)).status x ∧
      Derives l locator (first :: rest) (l.derive locator (first :: rest)) x := by
  obtain ⟨there, look⟩ := derive_waiting retrieving.sound retrieving.entry retrieving.fetching
    retrieving.own named
  have saved := saved_of_look look
  obtain ⟨-, -, held, record, -⟩ := derive_rest
    ((l.defineDerived_edits first (some locator)).quiet id)
    (l.defineDerived_orderly first (some locator) retrieving.sound).1 there saved others
  rw [derive_cons]
  refine ⟨r, held, by rw [status, record]; exact saved,
    .own first (List.mem_cons_self ..) named ((look_of_record record).trans look) ?_⟩
  rintro _ _ ⟨other, -⟩
  exact other named

/-- A module of another name comes first, and the locator's own may come later. -/
theorem derives_taken (retrieving : Retrieving l locator r) {first : Registration}
    {rest : List Registration} (distinct : (rest.map (l.aim locator)).Nodup)
    (other : l.aim locator first ≠ locator) :
    ∃ x, Loader.entry? (l.derive locator (first :: rest)) locator = some x ∧
      .saved ≤ (l.derive locator (first :: rest)).status x ∧
      Derives l locator (first :: rest) (l.derive locator (first :: rest)) x := by
  obtain ⟨x, there, here, second, saved, before⟩ := derive_first retrieving.sound retrieving.entry
    retrieving.fetching retrieving.lone other
  have quiet := (l.defineDerived_edits first (some locator)).quiet id
  have sound := (l.defineDerived_orderly first (some locator) retrieving.sound).1
  rw [derive_cons]
  generalize l.defineDerived first (some locator) = d at *
  by_cases late : ∃ own ∈ rest, l.aim locator own = locator
  · obtain ⟨own, member, named⟩ := late
    obtain ⟨earlier, later, rfl⟩ := List.append_of_mem member
    rw [List.map_append, List.map_cons, List.perm_middle.nodup_iff, List.nodup_cons, named] at distinct
    have others (registration : Registration) (apart : registration ∈ earlier ++ later) :
        l.aim locator registration ≠ locator := fun same => by
      have member := List.mem_map_of_mem (f := l.aim locator) apart
      rw [same, List.map_append] at member
      exact distinct.1 member
    obtain ⟨quiet, sound, there, record, -⟩ := derive_rest quiet sound there saved
      fun registration apart => others registration (List.mem_append_left _ apart)
    have status : Loader.status (d.derive locator earlier) x = d.status x := congrArg Record.status record
    rw [derive_append, derive_cons]
    generalize d.derive locator earlier = e at *
    have named_now : e.aim locator own = locator := (quiet.aim locator own).trans named
    have after := quiet.trans ((e.defineDerived_edits own (some locator)).quiet id)
    have later_sound := (e.defineDerived_orderly own (some locator) sound).1
    obtain ⟨held, ready, look⟩ | ⟨saved_only, unready⟩ := before
    · -- The module was ready, so it keeps the locator that it has taken over.
      have late : ¬ ((e.record x).secondLocator.isSome = true ∧ e.status x = .saved) := by
        rintro ⟨-, same⟩
        have before : l.status x = .saved := (congrArg Prod.snd look).symm.trans (status.symm.trans same)
        rw [before] at ready
        exact absurd ready (by decide)
      obtain ⟨registry, records⟩ := derive_late there (by rw [status]; exact saved) late named_now
      have same : Loader.record (e.defineDerived own (some locator)) x = d.record x := by
        rw [Loader.record, records]
        exact record
      obtain ⟨-, -, held', record', -⟩ := derive_rest after later_sound
        ((congrArg (OrderedMap.get? · locator) registry).trans there)
        (by rw [Loader.status, same]; exact saved)
        fun registration apart => others registration (List.mem_append_right _ apart)
      have final := record'.trans same
      exact ⟨x, held', by rw [Loader.status, final]; exact saved,
        .late own (.intro other held ready member named) ((look_of_record final).trans look)⟩
    · obtain ⟨there, look⟩ := derive_back there (by rw [record]; exact second)
        (status.trans saved_only) named_now
      have saved := saved_of_look look
      obtain ⟨-, -, held, record, -⟩ := derive_rest after later_sound there saved
        fun registration apart => others registration (List.mem_append_right _ apart)
      refine ⟨_, held, by rw [Loader.status, record]; exact saved,
        .own own (List.mem_cons_of_mem _ member) named ?_ ?_⟩
      · rw [look_of_record record, look, quiet.offer]
      · rintro _ _ ⟨-, held, ready, -⟩
        exact unready _ held ready
  · have others : ∀ registration ∈ rest, l.aim locator registration ≠ locator :=
      fun registration member same => late ⟨registration, member, same⟩
    obtain ⟨-, -, held, record, entry⟩ := derive_rest quiet sound there saved others
    exact ⟨x, held, by rw [status, record]; exact saved,
      .taken first rest rfl (List.forall_mem_cons.mpr ⟨other, others⟩) (entry _ _ other here)⟩

theorem derives (retrieving : Retrieving l locator r) (distinct : (rs.map (l.aim locator)).Nodup)
    (nonempty : rs ≠ []) :
    ∃ x, Loader.entry? (l.derive locator rs) locator = some x ∧ .saved ≤ (l.derive locator rs).status x ∧
      Derives l locator rs (l.derive locator rs) x := by
  cases rs with
  | nil => exact absurd rfl nonempty
  | cons first rest =>
    obtain ⟨fresh, distinct⟩ := List.nodup_cons.mp distinct
    by_cases named : l.aim locator first = locator
    · exact derives_early retrieving named fun registration member same =>
        fresh (named.trans same.symm ▸ List.mem_map_of_mem member)
    · exact derives_taken retrieving distinct named

theorem defineDerived_mute (l : Loader) (registration : Registration) (locator : Locator) :
    Mute l (l.defineDerived registration (some locator)) := by
  have taken (l : Loader) (r : RecordId) : Mute l (l.takePlaceholder locator r) := by
    unfold takePlaceholder
    split
    · split <;> exact ⟨rfl, rfl, rfl⟩
    · exact .refl l
  have dropped : Mute l (l.dropTakeover locator) := by
    unfold dropTakeover
    split
    · split <;> exact ⟨rfl, rfl, rfl⟩
    · exact .refl l
  by_cases own : l.aim locator registration = locator
  · rw [derive_own own]
    exact (dropped.trans (save_mute ..)).trans (taken ..)
  · rw [derive_other own]
    exact (save_mute ..).trans (taken ..)

/-- Whatever is registered, both ways agree beside the locator. -/
theorem derive_alike (retrieving : Retrieving l locator r) (anonymous : l.anonymous = none)
    (firstNamed : l.firstNamed = none) (rs : List Registration) :
    Quiet l (l.derive locator rs) ∧ Sound (l.derive locator rs) ∧ Mute l (l.derive locator rs) ∧
      (l.derive locator rs).Guards locator ∧ Alike locator (l.derive locator rs) (rs.foldl define l) := by
  induction rs using List.reverseRecOn with
  | nil =>
    exact ⟨.refl l, retrieving.sound, .refl l,
      ⟨r, retrieving.entry, .inr ⟨retrieving.fetching, retrieving.own, retrieving.lone⟩⟩, .refl locator l⟩
  | append_singleton rs registration ih =>
    obtain ⟨quiet, sound, mute, guards, alike⟩ := ih
    have gathers := Gathers.all retrieving anonymous firstNamed rs
    have apart : Quiet (l.derive locator rs) (rs.foldl define l) := quiet.symm.trans gathers.quiet
    rw [derive_append, derive_cons, List.foldl_append, List.foldl_cons, List.foldl_nil]
    exact ⟨quiet.trans ((defineDerived_edits _ registration (some locator)).quiet id),
      (defineDerived_orderly _ registration (some locator) sound).1,
      mute.trans (defineDerived_mute _ registration locator), guards.derive sound registration,
      alike.define sound gathers.sound apart guards gathers.entry gathers.lone registration⟩

/-! The end of the retrieval. -/

/-- Those who have joined a retrieval for the sake of another locator. -/
def joiners (l : Loader) (token : FetchToken) : List Locator :=
  (((l.ledger.inFlight.get? token.resource).getD []).map Waiter.locator).filter (· ≠ token.locator)

theorem isFreeFor_saved (saved : .saved ≤ l.status x) (k : Locator) :
    l.isFreeFor k x = ((l.entry? k).map l.look).all fun look => look.2 < .saved := by
  unfold isFreeFor
  cases l.entry? k with
  | none => rfl
  | some y =>
    by_cases same : y = x
    · subst same
      simp [look, show ¬ l.status y < .saved from Nat.not_lt.mpr saved]
    · simp [look, same]

theorem share_look (l : Loader) (k : Locator) (x y : RecordId) : (l.share k x).look y = l.look y := by
  unfold share
  dsimp only
  split
  · split
    · exact look_setSecondLocator ..
    · rfl
  · rfl

theorem share_entry (l : Loader) (k : Locator) (x : RecordId) (j : Locator) :
    Loader.entry? (l.share k x) j = if j = k ∧ l.isFreeFor k x = true then some x else l.entry? j := by
  by_cases free : l.isFreeFor k x = true
  · have pointed : Loader.entry? (l.share k x) j = if k = j then some x else l.entry? j := by
      unfold share
      rw [if_pos free]
      dsimp only
      split <;> exact entry_point ..
    simp only [pointed, free, and_true, eq_comm]
  · rw [share, if_neg free, if_neg (free ·.2)]

/-- Of those who have joined, the ones for which nothing has been saved share the module. -/
theorem gist?_joined (saved : .saved ≤ l.status x) (ks : List Locator) (j : Locator) :
    Loader.gist? (ks.foldl (settleJoined · x) l) j =
      if j ∈ ks ∧ l.isFreeFor j x = true then some (l.record x).gist else l.gist? j := by
  induction ks generalizing l with
  | nil => rfl
  | cons k ks ih =>
    have shared : l.settleJoined x k = l.share k x := if_pos saved
    have looks := l.share_look k x
    have same := congrArg Prod.fst (looks x)
    have status : (l.share k x).status x = l.status x := congrArg Prod.snd (looks x)
    have still : .saved ≤ (l.share k x).status x := status.symm ▸ saved
    have gist : (l.share k x).gist? j =
        if j = k ∧ l.isFreeFor k x = true then some (l.record x).gist else l.gist? j := by
      rw [gist?, share_entry]
      split
      · exact congrArg some same
      · have gists (y : RecordId) : ((l.share k x).record y).gist = (l.record y).gist :=
          congrArg Prod.fst (looks y)
        simp only [gists, gist?]
    have free : (l.share k x).isFreeFor j x = true ↔ j ≠ k ∧ l.isFreeFor j x = true := by
      rw [isFreeFor_saved still, share_entry, isFreeFor_saved saved j]
      simp only [show (l.share k x).look = l.look from funext looks]
      by_cases here : j = k
      · subst here
        by_cases free : l.isFreeFor j x = true
        · simp [free, look, show ¬ l.status x < .saved from Nat.not_lt.mpr saved]
        · rw [if_neg (free ·.2), ← isFreeFor_saved saved]
          simp [free]
      · simp [here]
    have kept : ((l.share k x).record x).gist = (l.record x).gist := same
    rw [List.foldl_cons, shared, ih still, gist, kept]
    simp only [free, List.mem_cons]
    by_cases here : j = k
    · subst here
      simp
    · simp [here]

/-- A retrieval has ended, but for those who have joined it. -/
def ended (l : Loader) (token : FetchToken) (r : RecordId) : Loader :=
  ((((l.note (.fetched token.locator token.resource)).closeRetrieval token).endFetching r).nameAnonymous
    token.locator).takeFirstNamed token.locator r

theorem ended_spares {token : FetchToken} (held : l.entry? token.locator = some r)
    (lone : ∀ k, l.entry? k = some r → k = token.locator) : Spares token.locator l (l.ended token r) := by
  let closed := (l.note (.fetched token.locator token.resource)).closeRetrieval token
  have entry := (closed.endFetching_rests r).entry
  have same : Spares token.locator l closed := .of_same rfl rfl
  have fetched : Spares token.locator closed (closed.endFetching r) := endFetching_spares lone
  have named : Spares token.locator (closed.endFetching r)
      ((closed.endFetching r).nameAnonymous token.locator) :=
    nameAnonymous_spares ((entry _).trans held) fun k held => lone k ((entry k).symm.trans held)
  exact same.trans (fetched.trans (named.trans (takeFirstNamed_spares ..)))

/-- A locator's retrieval has come to something saved. -/
structure Ends (l : Loader) (token : FetchToken) (e : Loader) (x : RecordId) : Prop where
  finished : (l.finishFetch token).1 = (l.joiners token).foldl (settleJoined · x) e
  entry : e.entry? token.locator = some x
  saved : .saved ≤ e.status x
  spares : Spares token.locator l e

/-- What retrievals come to is the same everywhere if it is the same for the locator. -/
theorem Ends.agree {a b a' b' : Loader} {token : FetchToken} {x y : RecordId} (left : Ends a token a' x)
    (right : Ends b token b' y) (alike : Alike token.locator a b) (quiet : Quiet a b) :
    (∀ k, (a.finishFetch token).1.gist? k = (b.finishFetch token).1.gist? k) ↔
      (a'.record x).gist = (b'.record y).gist := by
  have joiners : b.joiners token = a.joiners token := by rw [Loader.joiners, quiet.ledger, Loader.joiners]
  have looks := (alike.spared left.spares right.spares).looks
  have here : a'.gist? token.locator = some (a'.record x).gist := by rw [gist?, left.entry, Option.map_some]
  have there : b'.gist? token.locator = some (b'.record y).gist := by rw [gist?, right.entry, Option.map_some]
  have absent : token.locator ∉ a.joiners token := fun member => by
    simp [Loader.joiners] at member
  simp only [left.finished, right.finished, joiners, gist?_joined left.saved, gist?_joined right.saved]
  refine ⟨fun same => ?_, fun same k => ?_⟩
  · have own := same token.locator
    rw [if_neg (absent ·.1), if_neg (absent ·.1), here, there] at own
    exact Option.some.inj own
  · by_cases own : k = token.locator
    · subst own
      rw [if_neg (absent ·.1), if_neg (absent ·.1), here, there, same]
    · have gists (l : Loader) : l.gist? k = ((l.entry? k).map l.look).map Prod.fst := by
        rw [gist?, Option.map_map]
        rfl
      rw [isFreeFor_saved left.saved, isFreeFor_saved right.saved, gists, gists, looks k own, same]

/-- What has been saved for the locator keeps it. -/
theorem ends_saved {token : FetchToken} (held : l.entry? token.locator = some x) (saved : .saved ≤ l.status x)
    (anonymous : l.anonymous = none) (firstNamed : l.firstNamed = none) :
    ∃ e, Ends l token e x ∧ e.record x = l.record x := by
  let closed := (l.note (.fetched token.locator token.resource)).closeRetrieval token
  have ended : closed.endFetching x = closed :=
    if_neg (show ¬ l.status x = .fetching from Status.ne_fetching (by decide) saved)
  have named : closed.nameAnonymous token.locator = closed := by
    simp only [nameAnonymous, show closed.anonymous = none from anonymous]
  have taken : closed.takeFirstNamed token.locator x = closed := by
    simp only [takeFirstNamed, show closed.firstNamed = none from firstNamed]
  have found : Loader.entry? (((closed.endFetching x).nameAnonymous token.locator).takeFirstNamed
      token.locator x) token.locator = some x := by
    rw [ended, named, taken]
    exact held
  have settled := settle_held (l := closed) held found ((l.ledger.inFlight.get? token.resource).getD [])
  rw [ended, named, taken] at settled
  exact ⟨closed, ⟨settled, held, saved, .of_same rfl rfl⟩, rfl⟩

/-- Only one registration can be the locator's own. -/
theorem own_unique (distinct : (rs.map (l.aim locator)).Nodup) {one other : Registration}
    (first : one ∈ rs) (second : other ∈ rs) (here : l.aim locator one = locator)
    (there : l.aim locator other = locator) : one = other :=
  List.inj_on_of_nodup_map distinct first second (here.trans there.symm)

theorem aim_named {registration : Registration} {k : Locator} (named : l.named? registration = some k) :
    l.aim locator registration = k := by
  rw [aim, named, Option.getD_some]

theorem aim_unnamed {registration : Registration} (unnamed : l.named? registration = none) :
    l.aim locator registration = locator := by
  rw [aim, unnamed, Option.getD_none]

namespace Gathers

variable {token : FetchToken}

/-- The locator's own module is what the retrieval ends with. -/
theorem ends_own (gathers : Gathers l token.locator r rs g) (retrieving : Retrieving l token.locator r)
    (distinct : (rs.map (l.aim token.locator)).Nodup) {registration : Registration}
    (member : registration ∈ rs) (named : l.aim token.locator registration = token.locator) :
    ∃ e, Ends g token e r ∧ (e.record r).gist = l.offer token.locator registration.definition := by
  let closed := (g.note (.fetched token.locator token.resource)).closeRetrieval token
  have unique (other : Registration) (listed : other ∈ rs) (own : l.aim token.locator other = token.locator) :
      other = registration := own_unique distinct listed member own named
  have record : ((closed.endFetching r).nameAnonymous token.locator).record r =
      l.savedAs token.locator registration (l.record r) := by
    cases own : l.ownIn? token.locator rs with
    | some chosen =>
      have here : l.named? chosen = some token.locator := of_decide_eq_true (List.find?_some own :)
      obtain rfl := unique chosen (List.mem_of_find?_eq_some own) (aim_named here)
      exact gathers.named_saved closed rfl rfl own
    | none =>
      have unnamed : l.named? registration = none := by
        cases here : l.named? registration with
        | none => rfl
        | some k =>
          have missed := List.find?_eq_none.mp own registration member
          rw [aim_named here] at named
          simp [here, named] at missed
      have listed : registration ∈ l.unnamedIn rs :=
        List.mem_filter.mpr ⟨member, decide_eq_true unnamed⟩
      obtain ⟨last, there⟩ := Option.isSome_iff_exists.mp
        (List.getLast?_isSome.mpr (List.ne_nil_of_mem listed))
      obtain ⟨kept, nameless⟩ := List.mem_filter.mp (List.mem_of_getLast? there)
      obtain rfl := unique last kept (aim_unnamed (of_decide_eq_true nameless))
      exact gathers.named_last retrieving closed rfl rfl rfl rfl rfl own there
  have status : ((closed.endFetching r).nameAnonymous token.locator).status r = .saved :=
    congrArg Record.status record
  obtain ⟨registry, records⟩ := takeFirstNamed_other token.locator
    (l := (closed.endFetching r).nameAnonymous token.locator) (r := r)
    (.inl (by rw [status]; exact Status.noConfusion))
  have ended : Loader.entry? (closed.endFetching r) token.locator = some r :=
    ((closed.endFetching_rests r).entry _).trans gathers.entry
  have found : Loader.entry? (g.ended token r) token.locator = some r :=
    (congrArg (OrderedMap.get? · token.locator) registry).trans ((nameAnonymous_entry ended _).trans ended)
  have same : Loader.record (g.ended token r) r = l.savedAs token.locator registration (l.record r) := by
    rw [Loader.ended, Loader.record, records]
    exact record
  have finished := settle_held (l := closed) gathers.entry found
  refine ⟨g.ended token r, ⟨finished _, found, ?_, ended_spares gathers.entry gathers.lone⟩, ?_⟩
  · rw [Loader.status, same]
    exact Status.le_refl _
  · rw [same, Record.gist, offer]
    exact congrArg (·, _, _) retrieving.own

/-- Without a module of the locator's own the retrieval ends with the one that was registered first. -/
theorem ends_first {first : Registration} {rest : List Registration}
    (gathers : Gathers l token.locator r (first :: rest) g) (retrieving : Retrieving l token.locator r)
    (others : ∀ registration ∈ first :: rest, l.aim token.locator registration ≠ token.locator) :
    ∃ e x, Ends g token e x ∧ g.entry? (l.aim token.locator first) = some x ∧ e.look x = g.look x := by
  let closed := (g.note (.fetched token.locator token.resource)).closeRetrieval token
  have named (registration : Registration) (member : registration ∈ first :: rest) :
      l.named? registration ≠ none ∧ l.named? registration ≠ some token.locator :=
    ⟨fun unnamed => others registration member (aim_unnamed unnamed),
      fun own => others registration member (aim_named own)⟩
  have own : l.ownIn? token.locator (first :: rest) = none :=
    List.find?_eq_none.mpr fun registration member here =>
      (named registration member).2 (of_decide_eq_true here)
  have nothing : l.unnamedIn (first :: rest) = [] :=
    List.filter_eq_nil_iff.mpr fun registration member here =>
      (named registration member).1 (of_decide_eq_true here)
  obtain ⟨k, meant⟩ := Option.ne_none_iff_exists'.mp (named first (List.mem_cons_self ..)).1
  have aimed : l.aim token.locator first = k := aim_named meant
  obtain ⟨x, remembered, there⟩ := gathers.first k (by simp [firstIn?, meant])
  have other : k ≠ token.locator := aimed ▸ others first (List.mem_cons_self ..)
  have apart : x ≠ r := fun here => other (gathers.lone k (here ▸ there))
  obtain ⟨unnamed, ended⟩ := gathers.named_nothing retrieving closed rfl rfl own nothing
  have found : Loader.entry? (g.ended token r) token.locator = some x := by
    have taken : Loader.takeFirstNamed (closed.endFetching r) token.locator r = _ :=
      takeFirstNamed_taken ((closed.endFetching_mute r).firstNamed.trans remembered)
        (congrArg Record.status ended) apart
    rw [Loader.ended, unnamed, taken]
    exact (entry_point ..).trans (if_pos rfl)
  have spares := ended_spares gathers.entry gathers.lone
  have look := spares.look k x other there
  have finished := settle_held (l := closed) gathers.entry found
  refine ⟨g.ended token r, x, ⟨finished _, found, ?_, spares⟩, aimed ▸ there, look⟩
  have status : Loader.status (g.ended token r) x = g.status x := congrArg Prod.snd look
  exact status.symm ▸ gathers.sound.named remembered

end Gathers

/-- While a locator is retrieved on its own behalf, both ways to register agree on what every locator stands
for in the end, if a module that was ready before and takes the locator over does not keep it from a different
one that the resource registers. -/
theorem derived_as_defined {token : FetchToken} (retrieving : Retrieving l token.locator r)
    (anonymous : l.anonymous = none) (firstNamed : l.firstNamed = none)
    (distinct : (rs.map (l.aim token.locator)).Nodup) :
    (∀ k, ((l.derive token.locator rs).finishFetch token).1.gist? k =
        (finishFetch (rs.foldl define l) token).1.gist? k) ↔
      ∀ x own, l.Overtakes token.locator rs x own →
        (l.record x).gist = l.offer token.locator own.definition := by
  by_cases nonempty : rs = []
  · subst nonempty
    refine iff_of_true (fun _ => rfl) ?_
    rintro _ _ ⟨⟩
  obtain ⟨quiet, -, mute, -, alike⟩ := derive_alike retrieving anonymous firstNamed rs
  have gathers := Gathers.all retrieving anonymous firstNamed rs
  obtain ⟨x, held, saved, outcome⟩ := derives retrieving distinct nonempty
  obtain ⟨e, left, same⟩ := ends_saved held saved (mute.anonymous.trans anonymous)
    (mute.firstNamed.trans firstNamed)
  have apart := quiet.symm.trans gathers.quiet
  cases outcome with
  | taken first rest listed others there =>
    subst listed
    obtain ⟨e', y, right, here, look⟩ := gathers.ends_first retrieving others
    have first_other := others first (List.mem_cons_self ..)
    refine iff_of_true ((left.agree right alike apart).mpr ?_) ?_
    · have looks := alike.looks _ first_other
      rw [there, here] at looks
      rw [same]
      exact (congrArg Prod.fst (look.trans (Option.some.inj looks))).symm
    · rintro _ own ⟨-, -, -, member, named⟩
      exact absurd named (others own (List.mem_cons_of_mem _ member))
  | own registration member named look early =>
    obtain ⟨e', right, gist⟩ := gathers.ends_own retrieving distinct member named
    refine iff_of_true ((left.agree right alike apart).mpr ?_)
      fun y own overtakes => absurd overtakes (early y own)
    rw [same, gist]
    exact congrArg Prod.fst look
  | late own overtakes look =>
    obtain ⟨other, there, ready, member, named⟩ := overtakes
    obtain ⟨e', right, gist⟩ := gathers.ends_own retrieving distinct (List.mem_cons_of_mem _ member) named
    rw [left.agree right alike apart, same, gist, show (Loader.record _ x).gist = (l.record x).gist from
      congrArg Prod.fst look]
    refine ⟨?_, fun all => all x own (.intro other there ready member named)⟩
    rintro gists _ own' ⟨-, there', -, member', named'⟩
    obtain rfl := Option.some.inj (there.symm.trans there')
    rw [own_unique distinct (List.mem_cons_of_mem _ member') (List.mem_cons_of_mem _ member) named' named]
    exact gists

end

end Loader

open Loader (Retrieving)

/-- The loader while a retrieval is under way, at some moment or within the step that asks for it. -/
inductive Machine.Retrieves (past : List Machine) (m : Machine) (token : FetchToken) : Loader → Prop where
  | waiting (flying : token ∈ underWay (occurrences past)) : Retrieves past m token m.world.loader
  | asking {locator : Locator} {later : List Locator} {b : BarrierId} {below : List Frame}
      (top : m.stack = .entries (locator :: later) b :: below)
      (starts : m.world.startedBy? locator b = some token) :
      Retrieves past m token (m.world.asking locator b)

section

variable {host : Action → Prop} {setup : Setup} {past : List Machine} {m : Machine} {l : Loader}
  {token : FetchToken}

/-- The fetcher is asked for what nothing has been under way for. -/
theorem World.asking_flying {w : World} {locator : Locator} {b : BarrierId}
    (starts : w.startedBy? locator b = some token) :
    ((w.asking locator b).ledger.inFlight.get? token.resource).isSome = true := by
  unfold startedBy? at starts
  unfold asking
  generalize w.loader.ensure locator .fetching = ensured at *
  obtain ⟨l, r⟩ := ensured
  dsimp only at *
  split at starts
  · cases starts
  · obtain ⟨_, -, same⟩ | ⟨_, -, -, start, -⟩ | ⟨-, -, start, ledger⟩ := l.awaitResource_cases ⟨locator, b⟩
    · rw [same] at starts
      cases starts
    · rw [start] at starts
      cases starts
    · rw [start] at starts
      cases starts
      rw [ledger, OrderedMap.get?_insert, if_pos rfl]
      rfl

/-- A locator that is being retrieved has a record of its own. -/
theorem Run.retrieving (run : Run host (.fresh setup) past m) (retrieves : m.Retrieves past token l)
    {r : RecordId} (held : l.entry? token.locator = some r) (fetching : l.status r = .fetching) :
    Retrieving l token.locator r := by
  have facts : Loader.Sound l ∧ l.Solitary ∧ (l.ledger.inFlight.get? token.resource).isSome = true := by
    cases retrieves with
    | waiting flying =>
      exact ⟨run.sound, solitary_always run, ((tracked_always run).flying _).mpr (List.mem_map_of_mem flying)⟩
    | @asking locator _ b _ top starts =>
      obtain ⟨none, -⟩ | ⟨_, -, -, fetches, -⟩ := World.enter_cases run.sound locator b
      · cases none.symm.trans starts
      · have becomes := World.asking_becomes fetches b
        exact ⟨becomes.sound run.sound, becomes.renamed.solitary run.sound (solitary_always run),
          World.asking_flying starts⟩
  obtain ⟨sound, solitary, flying⟩ := facts
  have own := solitary token.locator r held fetching
  exact ⟨sound, held, fun k there => (solitary k r there fetching).symm.trans own, own, fetching,
    OrderedMap.isEmpty_of_found flying⟩

/-- While a locator waits for a retrieval of its own and nothing else has been registered, the two ways to
register a resource whose modules are all different leave every locator with the same module, unless the first
registration is for a module that is ready already and a later one is the locator's own: then they do so only
if the two modules cannot be told apart. -/
theorem derivation_agrees_iff (run : Run host (.fresh setup) past m) (retrieves : m.Retrieves past token l)
    {r : RecordId} (held : l.entry? token.locator = some r) (fetching : l.status r = .fetching)
    (anonymous : l.anonymous = none) (firstNamed : l.firstNamed = none) {rs : List Registration}
    (distinct : (rs.map (l.aim token.locator)).Nodup) :
    (∀ k, ((l.derive token.locator rs).finishFetch token).1.gist? k =
        (Loader.finishFetch (rs.foldl Loader.define l) token).1.gist? k) ↔
      ∀ x own, l.Overtakes token.locator rs x own →
        (l.record x).gist = l.offer token.locator own.definition :=
  Loader.derived_as_defined (run.retrieving retrieves held fetching) anonymous firstNamed distinct

end

/-- A session over a package that names a module which has a file of its own too. -/
def Setup.overlap : Setup where
  config := {}
  resolver := Config.resolver {}
  policy := .derived
  sink := .silent
  files := [(⟨"page:/lib/helper"⟩, .mk none (some []) (.value (.int 1))),
    (⟨"page:/pkg"⟩, .mk (some "lib/helper") (some []) (.value (.int 2))),
    (⟨"page:/pkg"⟩, .mk none (some []) (.value (.int 3)))]

/-- The package is asked for when the module that it names has been registered, but not loaded. -/
theorem Setup.overlap_unready : ∃ past m l token, Run (fun _ => True) (.fresh .overlap) past m ∧
    m.Retrieves past token l ∧ l.entry? token.locator = some ⟨1⟩ ∧ l.status ⟨1⟩ = .fetching ∧
    l.anonymous = none ∧ l.firstNamed = none ∧
    (m.world.fetcher.registrations token.resource).map (l.aim token.locator) =
      [⟨"page:/lib/helper"⟩, ⟨"page:/pkg"⟩] ∧
    (l.entry? ⟨"page:/lib/helper"⟩).map l.status = some .saved := by
  have fresh : Run (fun _ => True) (.fresh .overlap) [] (.fresh .overlap) := .start
  have run := ((fresh.played 60 [.define (.mk (some "lib/helper") (some []) (.value (.int 4)))]
    (fun _ _ => trivial) (by decide +kernel)).act (.useModules ["pkg"] "package" []) trivial).continued 5
  exact ⟨_, _, _, ⟨⟨"page:/pkg"⟩, ⟨"page:/pkg"⟩⟩, run, .asking rfl (by decide +kernel), by decide +kernel,
    by decide +kernel, by decide +kernel, by decide +kernel, by decide +kernel, by decide +kernel⟩

theorem derivation_agrees_iff_unready :
    ∃ past m l token rs, Run (fun _ => True) (.fresh .overlap) past m ∧ m.Retrieves past token l ∧
      rs = m.world.fetcher.registrations token.resource ∧
      rs.map (l.aim token.locator) = [⟨"page:/lib/helper"⟩, ⟨"page:/pkg"⟩] ∧
      ∀ k, ((l.derive token.locator rs).finishFetch token).1.gist? k =
        (Loader.finishFetch (rs.foldl Loader.define l) token).1.gist? k := by
  obtain ⟨past, m, l, token, run, retrieves, held, fetching, anonymous, firstNamed, aims, saved⟩ :=
    Setup.overlap_unready
  refine ⟨past, m, l, token, _, run, retrieves, rfl, aims, ?_⟩
  refine (derivation_agrees_iff run retrieves held fetching anonymous firstNamed
    (by rw [aims]; decide)).mpr ?_
  generalize m.world.fetcher.registrations token.resource = rs at aims
  rintro x own ⟨-, there, ready, -⟩
  rw [(List.cons.inj aims).1] at there
  rw [there, Option.map_some, Option.some.injEq] at saved
  rw [saved] at ready
  exact absurd ready (by decide)

/-- The package is asked for when the module that it names has been compiled. -/
theorem Setup.overlap_compiled : ∃ past m l token, Run (fun _ => True) (.fresh .overlap) past m ∧
    m.Retrieves past token l ∧ l.entry? token.locator = some ⟨1⟩ ∧ l.status ⟨1⟩ = .fetching ∧
    l.anonymous = none ∧ l.firstNamed = none ∧
    let rs := m.world.fetcher.registrations token.resource
    (rs.map (l.aim token.locator)).Nodup ∧
      (((l.derive token.locator rs).finishFetch token).1.gist? token.locator).map Prod.fst ≠
        ((Loader.finishFetch (rs.foldl Loader.define l) token).1.gist? token.locator).map Prod.fst := by
  have fresh : Run (fun _ => True) (.fresh .overlap) [] (.fresh .overlap) := .start
  have run := ((fresh.played 60 [.useModules ["lib/helper"] "helper" []] (fun _ _ => trivial)
    (by decide +kernel)).act (.useModules ["pkg"] "package" []) trivial).continued 5
  exact ⟨_, _, _, ⟨⟨"page:/pkg"⟩, ⟨"page:/pkg"⟩⟩, run, .asking rfl (by decide +kernel), by decide +kernel,
    by decide +kernel, by decide +kernel, by decide +kernel, by decide +kernel, by decide +kernel⟩

/-- A module that has been compiled takes over the locator of a package that names it, and keeps it from the
package's own module if the host says for which locator it registers them. -/
theorem compiled_keeps_package :
    ¬ ∀ (setup : Setup) (past : List Machine) (m : Machine) (l : Loader) (token : FetchToken) (r : RecordId)
        (rs : List Registration), Run (fun _ => True) (.fresh setup) past m → m.Retrieves past token l →
      l.entry? token.locator = some r → l.status r = .fetching → l.anonymous = none → l.firstNamed = none →
      (rs.map (l.aim token.locator)).Nodup →
      ∀ k, ((l.derive token.locator rs).finishFetch token).1.gist? k =
        (Loader.finishFetch (rs.foldl Loader.define l) token).1.gist? k := by
  intro agree
  obtain ⟨past, m, l, token, run, retrieves, held, fetching, anonymous, firstNamed, distinct, apart⟩ :=
    Setup.overlap_compiled
  have same := agree _ past m l token _ _ run retrieves held fetching anonymous firstNamed distinct
  exact apart (congrArg _ (same token.locator))

end ModuleLoader
