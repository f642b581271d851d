import ModuleLoader.Proofs.Effects.Deeds
import ModuleLoader.Proofs.Effects.Entering
import ModuleLoader.Proofs.Effects.Settling
import ModuleLoader.Proofs.Listed.Work
import ModuleLoader.Proofs.Retrieval

/-! Which module a locator stands for when its resource has been retrieved. The registrations of a resource
reach its retrieval through two places of the loader, so nothing may get in between: both places are empty
whenever no retrieval is about to end. -/
namespace ModuleLoader

open Loader (Sound Mute Becomes Retrieving Gathers Packs)

/-- The retrieval that the next step answers with what its resource holds, and the loader before that. -/
def Machine.answers? (m : Machine) : Option (Loader × FetchToken) :=
  match m.stack with
  | .entries (locator :: _) b :: _ =>
    if m.world.fetcher.policy = .immediate then
      (m.world.startedBy? locator b).map fun token => (m.world.asking locator b, token)
    else none
  | frame :: _ => (m.world.taken? frame).map fun (taken, token) => (taken.loader, token)
  | [] => none

theorem Frame.isOrdinary.token {f : Frame} (ordinary : f.isOrdinary = true) : f.token? = none := by
  cases f with
  | retrieved => cases ordinary
  | _ => rfl

namespace World

variable {w : World} {locator : Locator} {b : BarrierId}

theorem asking_mute (w : World) (locator : Locator) (b : BarrierId) :
    Mute w.loader (w.asking locator b) := by
  have made := w.loader.ensure_mute locator .fetching
  unfold asking
  generalize (w.loader.ensure locator .fetching).1 = l at *
  unfold Loader.awaitResource
  dsimp only
  split
  · exact made.trans (l.share_mute _ _)
  · split
    · exact made.trans ⟨l.note_reports (e := .joined locator (l.resolver.physicalId locator)) rfl, rfl, rfl⟩
    · exact made.trans ⟨l.note_reports (e := .fetch locator (l.resolver.physicalId locator)) rfl, rfl, rfl⟩

/-- An entry of a load goes on or waits, unless it starts a retrieval. Only who has to wait is asking. -/
theorem enter_cases (sound : Sound w.loader) (locator : Locator) (b : BarrierId) :
    let made := (w.loader.ensure locator .fetching).1
    (w.startedBy? locator b = none ∧ (∀ f ∈ (w.enter locator b).2, f.token? = none) ∧
      ((w.enter locator b).1 = { w with loader := made } ∨
        made.Fetches locator ∧ (w.enter locator b).1 = { w with loader := w.asking locator b })) ∨
      ∃ token, w.startedBy? locator b = some token ∧ token.locator = locator ∧ made.Fetches locator ∧
        w.enter locator b = { w with loader := w.asking locator b }.retrieve token := by
  have enters := World.enters sound locator b
  generalize w.startedBy? locator b = start, w.enter locator b = entered at *
  cases enters with
  | landed => exact .inl ⟨rfl, List.forall_mem_singleton.mpr rfl, .inl rfl⟩
  | shared fetches => exact .inl ⟨rfl, List.forall_mem_singleton.mpr rfl, .inr ⟨fetches, rfl⟩⟩
  | joined fetches => exact .inl ⟨rfl, List.forall_mem_nil _, .inr ⟨fetches, rfl⟩⟩
  | started fetches same => exact .inr ⟨_, rfl, by rw [same], fetches, rfl⟩

/-- Whoever asks does so for a locator that is being retrieved. -/
theorem asking_becomes {locator : Locator} (fetches : (w.loader.ensure locator .fetching).1.Fetches locator)
    (b : BarrierId) : Becomes w.loader (w.asking locator b) := by
  obtain ⟨r, held, fetching⟩ := fetches
  exact (w.loader.ensure_becomes locator).trans
    (Loader.awaitResource_becomes ⟨locator, b⟩ held fetching)

end World

/-- Who answers from the table hands nothing to the host. -/
theorem FetchPolicy.Answers.unmanned {policy : FetchPolicy} (answers : policy.Answers) :
    policy ≠ .manual := by
  rintro rfl
  obtain queued | immediate := answers
  · cases queued
  · cases immediate

/-- Nothing waits for a retrieval to end unless one is about to, and then it is the next to do so. -/
structure Unclaimed (m : Machine) : Prop where
  answers : m.world.fetcher.policy.Answers
  unhanded : m.world.fetcher.tokens = #[]
  single : ∀ f ∈ m.stack.tail, f.token? = none
  empty : (∀ f ∈ m.stack, f.token? = none) →
    m.world.loader.anonymous = none ∧ m.world.loader.firstNamed = none

namespace Unclaimed

variable {w w' : World} {frame : Frame} {frames rest : List Frame}

theorem frame_empty (unclaimed : Unclaimed ⟨w, frame :: rest⟩) (outside : frame.token? = none) :
    w.loader.anonymous = none ∧ w.loader.firstNamed = none := by
  refine unclaimed.empty fun f member => ?_
  rcases List.mem_cons.mp member with rfl | later
  · exact outside
  · exact unclaimed.single f later

/-- Nothing waits when a queued retrieval is taken: the frame that takes it is not the end of another one. -/
theorem taken_empty (unclaimed : Unclaimed ⟨w, frame :: rest⟩) {taken : World × FetchToken}
    (takes : w.taken? frame = some taken) : w.loader.anonymous = none ∧ w.loader.firstNamed = none := by
  refine unclaimed.frame_empty ?_
  cases frame with
  | retrieved => cases takes
  | _ => rfl

/-- A step at which no retrieval comes to its end. -/
theorem aside (unclaimed : Unclaimed ⟨w, frame :: rest⟩) (tame : w.Tame w')
    (plain : ∀ f ∈ frames, f.token? = none)
    (empty : w'.loader.anonymous = none ∧ w'.loader.firstNamed = none) :
    Unclaimed ⟨w', frames ++ rest⟩ := by
  refine ⟨tame.policy ▸ unclaimed.answers, tame.unhanded unclaimed.answers.unmanned unclaimed.unhanded,
    fun f member => ?_, fun _ => empty⟩
  rcases List.mem_append.mp (List.mem_of_mem_tail member) with new | old
  · exact plain f new
  · exact unclaimed.single f old

/-- A step after which a retrieval is about to end. -/
theorem answered (unclaimed : Unclaimed ⟨w, frame :: rest⟩) (tame : w.Tame w') {token : FetchToken}
    (plain : ∀ f ∈ frames, f.token? = none) :
    Unclaimed ⟨w', .retrieved token :: frames ++ rest⟩ := by
  refine ⟨tame.policy ▸ unclaimed.answers, tame.unhanded unclaimed.answers.unmanned unclaimed.unhanded,
    fun f member => ?_, fun none => ?_⟩
  · rcases List.mem_append.mp member with new | old
    · exact plain f new
    · exact unclaimed.single f old
  · cases none _ (List.mem_cons_self ..)

/-- The host holds no retrieval. -/
theorem no_token (unclaimed : Unclaimed ⟨w, frame :: rest⟩) (index : Nat) : w.token? index = none := by
  have none : w.fetcher.tokens = #[] := unclaimed.unhanded
  rw [World.token?, none]
  rfl

end Unclaimed

/-- A retrieval has been answered from a loader in which nothing was waiting for another one to end. -/
structure Answered (m : Machine) (token : FetchToken) (l l' : Loader) : Prop where
  answers : m.answers? = some (l, token)
  loader : l' = (m.world.fetcher.registrations token.resource).foldl Loader.define l
  sound : Sound l
  solitary : l.Solitary
  empty : l.anonymous = none ∧ l.firstNamed = none

/-- A step leaves nothing behind that waits for a retrieval to end, or it answers a retrieval. -/
theorem Deed.answered_or {w w' : World} {frame : Frame} {frames rest : List Frame}
    (deed : Deed w frame w' frames) (unclaimed : Unclaimed ⟨w, frame :: rest⟩) (sound : Sound w.loader)
    (solitary : w.loader.Solitary)
    (unregistered : ∀ site action later, frame = .script site (action :: later) →
      action.registers = false) :
    ((∀ f ∈ frames, f.token? = none) ∧ w'.loader.anonymous = none ∧ w'.loader.firstNamed = none) ∨
      ∃ token others l, frames = .retrieved token :: others ∧ (∀ f ∈ others, f.token? = none) ∧
        Answered ⟨w, frame :: rest⟩ token l w'.loader := by
  have plain {frames : List Frame} (ordinary : ∀ f ∈ frames, f.isOrdinary = true) :
      ∀ f ∈ frames, f.token? = none := fun f member => Frame.isOrdinary.token (ordinary f member)
  cases deed with
  | aside outside stays files ordinary =>
    have empty := unclaimed.frame_empty (by
      cases frame with
      | retrieved => cases outside
      | _ => rfl)
    exact .inl ⟨plain ordinary, stays.anonymous.trans empty.1, stays.firstNamed.trans empty.2⟩
  | queued site later id body patch waits loader fetcher ordinary =>
    rw [loader]
    exact .inl ⟨plain ordinary, unclaimed.frame_empty rfl⟩
  | patched site later id body patch r held compiled loader fetcher ordinary =>
    rw [loader]
    exact .inl ⟨List.forall_mem_cons.mpr ⟨rfl, plain ordinary⟩, unclaimed.frame_empty rfl⟩
  | removed site later key loader fetcher ordinary =>
    rw [loader]
    exact .inl ⟨plain ordinary, unclaimed.frame_empty rfl⟩
  | registered site action later registration registers =>
    cases (unregistered site action later rfl).symm.trans registers
  | filed site later resource draft loader ordinary =>
    rw [loader]
    exact .inl ⟨plain ordinary, unclaimed.frame_empty rfl⟩
  | handed site later index token held => cases (unclaimed.no_token index).symm.trans held
  | answered token takes loader files ordinary =>
    have empty := unclaimed.taken_empty takes
    refine .inr ⟨token, _, w.loader, rfl, plain ordinary, ?_, ?_, sound, solitary, empty⟩
    · have same : Machine.answers? ⟨w, frame :: rest⟩ =
          (w.taken? frame).map fun (taken, token) => (taken.loader, token) := by
        cases frame with
        | entries => cases takes
        | _ => rfl
      rw [same, takes, Option.map_some, ← loader]
    · rw [World.evaluate, Fetcher.registrations_of_files files, loader]
  | entered locator later b =>
    have empty := unclaimed.frame_empty rfl
    have others : ∀ f ∈ [Frame.entries later b], f.token? = none := List.forall_mem_singleton.mpr rfl
    obtain ⟨-, none, made | ⟨-, asked⟩⟩ | ⟨token, starts, -, fetches, same⟩ :=
      World.enter_cases sound locator b
    · have mute := w.loader.ensure_mute locator .fetching
      rw [made]
      exact .inl ⟨List.forall_mem_append.mpr ⟨none, others⟩, mute.anonymous.trans empty.1,
        mute.firstNamed.trans empty.2⟩
    · have mute := w.asking_mute locator b
      rw [asked]
      exact .inl ⟨List.forall_mem_append.mpr ⟨none, others⟩, mute.anonymous.trans empty.1,
        mute.firstNamed.trans empty.2⟩
    · have mute := w.asking_mute locator b
      have empty := And.intro (mute.anonymous.trans empty.1) (mute.firstNamed.trans empty.2)
      rw [same]
      obtain queued | immediate := unclaimed.answers
      · simp only [World.retrieve, show w.fetcher.policy = .queued from queued]
        exact .inl ⟨others, empty⟩
      · simp only [World.retrieve, show w.fetcher.policy = .immediate from immediate]
        have becomes := World.asking_becomes fetches b
        refine .inr ⟨token, _, w.asking locator b, rfl, others, ?_, rfl, becomes.sound sound,
          becomes.renamed.solitary sound solitary, empty⟩
        simp only [Machine.answers?, show w.fetcher.policy = .immediate from immediate, if_true, starts,
          Option.map_some]
  | finished token =>
    obtain ⟨anonymous, firstNamed, -⟩ := w.loader.finishFetch_empties token
    refine .inl ⟨fun f member => ?_, anonymous, firstNamed⟩
    obtain ⟨waiter, -, rfl⟩ := List.mem_map.mp member
    rfl
  | ended r =>
    refine .inl ⟨fun f member => ?_, unclaimed.frame_empty rfl⟩
    rcases List.mem_append.mp member with taken | last
    · obtain ⟨key, -, rfl⟩ := List.mem_map.mp taken
      rfl
    · cases List.mem_singleton.mp last
      rfl
  | applied key r =>
    refine .inl ⟨fun f member => ?_, unclaimed.frame_empty rfl⟩
    obtain ⟨patch, -, here⟩ := List.mem_flatMap.mp member
    simp only [List.mem_cons, List.not_mem_nil, or_false] at here
    obtain rfl | rfl := here <;> rfl

section

variable {host : Action → Prop} {setup : Setup} {past : List Machine} {m : Machine}

theorem none_registered (none : (acted past).any Action.registers = false) :
    ∀ action ∈ acted past, action.registers = false :=
  fun action member => Bool.eq_false_iff.mpr (List.any_eq_false.mp none action member)

theorem unclaimed_always (answers : setup.policy.Answers) (run : Run host (.fresh setup) past m)
    (unregistered : ∀ action ∈ acted past, action.registers = false) : Unclaimed m := by
  refine run.invariant_acting unregistered (P := fun _ m => Unclaimed m) ?_ ?_ ?_
  · rw [Machine.fresh, World.start_bare]
    exact ⟨answers, rfl, List.forall_mem_nil _, fun _ => ⟨rfl, rfl⟩⟩
  · intro past w frame rest run _ unregistered unclaimed
    have tame := (frame.effect run.sound).tame
    obtain ⟨plain, empty⟩ | ⟨token, others, l, frames, plain, -⟩ :=
      run.deed.answered_or unclaimed run.sound (solitary_always run) unregistered
    · exact unclaimed.aside tame plain empty
    · rw [frames]
      exact unclaimed.answered tame plain
  · intro past w action run allowed unclaimed
    obtain ⟨answers, unhanded, -, empty⟩ := unclaimed
    exact ⟨answers, unhanded, List.forall_mem_nil _, fun _ => empty (List.forall_mem_nil _)⟩

/-- A retrieval that is about to end was answered by the step before. -/
theorem answered_before (answers : setup.policy.Answers) (run : Run host (.fresh setup) past m)
    (unregistered : ∀ action ∈ acted past, action.registers = false) {token : FetchToken}
    {below : List Frame} (ends : m.stack = .retrieved token :: below) :
    ∃ before earlier l, past = before :: earlier ∧ Run host (.fresh setup) earlier before ∧
      Answered before token l m.world.loader := by
  cases run with
  | start => cases ends
  | act => cases ends
  | @work past before _ run stepped =>
    obtain ⟨w, stack⟩ := before
    cases stack with
    | nil => cases stepped
    | cons frame rest =>
      obtain rfl := Option.some.inj ((Machine.step?_cons w frame rest).symm.trans stepped)
      change (frame.exec w).2 ++ rest = .retrieved token :: below at ends
      have unclaimed := unclaimed_always answers run fun action member =>
        unregistered action (acted_subset _ past member)
      obtain ⟨plain, -⟩ | ⟨answer, others, l, frames, -, answered⟩ :=
        run.deed.answered_or unclaimed run.sound (solitary_always run) (by
          rintro site action later rfl
          exact unregistered action (List.mem_cons_self ..))
      · have member : .retrieved token ∈ (frame.exec w).2 ++ rest := ends ▸ List.mem_cons_self ..
        rcases List.mem_append.mp member with new | old
        · cases plain _ new
        · cases unclaimed.single _ old
      · rw [frames] at ends
        cases ends
        exact ⟨_, past, l, rfl, run, answered⟩

/-- A resource is under way as long as its retrieval can come to its end. -/
theorem flying_of_ends (run : Run host (.fresh setup) past m) {token : FetchToken} {below : List Frame}
    (ends : m.stack = .retrieved token :: below) :
    (m.world.loader.ledger.inFlight.get? token.resource).isSome = true := by
  have tracked := tracked_always run
  refine (tracked.flying _).mpr (List.mem_map_of_mem (tracked.outstanding.subset ?_))
  rw [Machine.tokens, ends]
  exact List.mem_cons_self ..

/-- When a retrieval ends that has been answered from the table of files, its locator stands for what the
resource registers, if it was still waiting for it when the registrations began: for the first module that
is registered under the locator; otherwise for the last one without a name; otherwise for the first one that
is registered at all, which is noted with it. Those who waited for the retrieval go on next. -/
theorem package_settled (answers : setup.policy.Answers) (run : Run host (.fresh setup) past m)
    (unregistered : ∀ action ∈ acted past, action.registers = false) {token : FetchToken}
    {below : List Frame} (ends : m.stack = .retrieved token :: below) :
    ∃ before earlier l after, past = before :: earlier ∧ before.answers? = some (l, token) ∧
      m.step? = some after ∧
      after.stack = ((l.ledger.inFlight.get? token.resource).getD []).map
        (fun waiter => .settled waiter.locator waiter.barrier) ++ below ∧
      ∀ r, l.entry? token.locator = some r → l.status r = .fetching →
        Packs l token.locator r (before.world.fetcher.registrations token.resource)
          after.world.loader := by
  obtain ⟨before, earlier, l, rfl, -, answered⟩ := answered_before answers run unregistered ends
  have flying := flying_of_ends run ends
  have quiet : Loader.Quiet l m.world.loader := by
    rw [answered.loader]
    exact (Loader.Edits.foldl (fun l _ member => (before.world.register_permitted member l none).1) l).quiet id
  rw [quiet.ledger] at flying
  have stepped : m.step? = some ⟨(m.world.finishFetch token).1, (m.world.finishFetch token).2 ++ below⟩ := by
    obtain ⟨w, stack⟩ := m
    cases ends
    rfl
  refine ⟨before, earlier, l, _, rfl, answered.answers, stepped, ?_, fun r held fetching => ?_⟩
  · rw [← quiet.ledger]
    rfl
  · have own := answered.solitary token.locator r held fetching
    have retrieving : Retrieving l token.locator r :=
      ⟨answered.sound, held, fun k there => (answered.solitary k r there fetching).symm.trans own,
        own, fetching, OrderedMap.isEmpty_of_found flying⟩
    have gathers := Gathers.all retrieving answered.empty.1 answered.empty.2
      (before.world.fetcher.registrations token.resource)
    rw [← answered.loader] at gathers
    exact gathers.packs retrieving

end

/-- A session over a file that registers one module by name and two without. -/
def Setup.parcel : Setup where
  config := {}
  resolver := .flat
  policy := .queued
  sink := .buffer []
  files := [
    (⟨"mem:pkg"⟩, .mk (some "helper") (some []) (.value (.int 1))),
    (⟨"mem:pkg"⟩, .mk none (some []) (.value (.int 2))),
    (⟨"mem:other"⟩, .mk none (some []) (.value (.int 3))),
    (⟨"mem:pkg"⟩, .mk none (some ["other"]) (.value (.int 4)))]

/-- The file is retrieved while another retrieval is under way, and nothing in it has its name. -/
theorem Setup.parcel_run : ∃ before past m below,
    Run (fun _ => True) (.fresh .parcel) (before :: past) m ∧
      (acted (before :: past)).any Action.registers = false ∧
      m.stack = .retrieved ⟨⟨"mem:pkg"⟩, ⟨"mem:pkg"⟩⟩ :: below ∧
      m.world.loader.ledger.inFlight.contains ⟨"mem:other"⟩ = true ∧
      before.answers?.all (fun (l, token) =>
        let rs := before.world.fetcher.registrations token.resource
        l.entry? token.locator = some ⟨0⟩ && l.status ⟨0⟩ = .fetching &&
          (l.ownIn? token.locator rs).isNone &&
          (l.unnamedIn rs).getLast?.map Registration.dependencies = some (some ["other"])) = true := by
  have fresh : Run (fun _ => True) (.fresh .parcel) [] (.fresh .parcel) := .start
  have run := ((fresh.played 40 [.load [⟨"mem:pkg"⟩, ⟨"mem:other"⟩] "both" []] (fun _ _ => trivial)
    (by decide +kernel)).act (.complete ⟨"mem:pkg"⟩) trivial).work (Machine.step?_cons ..)
  exact ⟨_, _, _, _, run, by decide +kernel, rfl, by decide +kernel, by decide +kernel⟩

/-- The last module without a name is what the file stands for. -/
theorem package_settled_parcel :
    ∃ past m below after registration, Run (fun _ => True) (.fresh .parcel) past m ∧
      (∀ action ∈ acted past, action.registers = false) ∧
      m.stack = .retrieved ⟨⟨"mem:pkg"⟩, ⟨"mem:pkg"⟩⟩ :: below ∧ m.step? = some after ∧
      m.world.loader.ledger.inFlight.contains ⟨"mem:other"⟩ = true ∧
      registration.dependencies = some ["other"] ∧
      after.world.loader.Brings ⟨"mem:pkg"⟩ registration ⟨0⟩ := by
  obtain ⟨before, past, m, below, run, unregistered, ends, other, facts⟩ := Setup.parcel_run
  have unregistered := none_registered unregistered
  obtain ⟨_, _, l, after, same, answers, stepped, -, packs⟩ :=
    package_settled (.inl rfl) run unregistered ends
  obtain ⟨rfl, rfl⟩ := List.cons.inj same
  rw [answers] at facts
  simp only [Option.all_some, Bool.and_eq_true, decide_eq_true_eq, Option.isNone_iff_eq_none] at facts
  obtain ⟨⟨⟨held, fetching⟩, own⟩, last⟩ := facts
  obtain ⟨registration, last, dependencies⟩ := Option.map_eq_some_iff.mp last
  exact ⟨_, m, below, after, registration, run, unregistered, ends, stepped, other, dependencies,
    (packs ⟨0⟩ held fetching).unnamed own registration last⟩

end ModuleLoader
