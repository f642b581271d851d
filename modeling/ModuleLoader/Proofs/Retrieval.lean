import ModuleLoader.Proofs.Effects.Exec

/-! No resource is retrieved twice, unless what its retrieval was started for has been removed. -/
namespace ModuleLoader

open Loader (Sound Orderly Landed)

/-- The retrievals that have been started and never finished, latest first. -/
def underWay : List Occurrence → List FetchToken
  | [] => []
  | .started token :: earlier => token :: underWay earlier
  | .finished token :: earlier => (underWay earlier).erase token
  | _ :: earlier => underWay earlier

/-- The fetcher has not been asked for a resource. -/
def Unstarted (p : PhysicalId) (os : List Occurrence) : Prop :=
  ∀ token, .started token ∈ os → token.resource ≠ p

/-- The latest retrieval of a resource was this one; it has finished, and that is what has happened
since. -/
def LatestOver (os : List Occurrence) (last : FetchToken) (since : List Occurrence) : Prop :=
  ∃ between before, os = since ++ .finished last :: (between ++ .started last :: before) ∧
    Unstarted last.resource since ∧ Unstarted last.resource between

theorem Unstarted.nil (p : PhysicalId) : Unstarted p [] := fun _ nothing => by cases nothing

theorem Unstarted.cons {p : PhysicalId} {os : List Occurrence} {o : Occurrence}
    (other : ∀ token, o = .started token → token.resource ≠ p) (unstarted : Unstarted p os) :
    Unstarted p (o :: os) := by
  intro token started
  rcases List.mem_cons.mp started with same | earlier
  · exact other token same.symm
  · exact unstarted token earlier

/-- Where a resource stands that is not being retrieved: untouched, at hand, or removed. -/
def Grounded (os : List Occurrence) (l : Loader) (p : PhysicalId) : Prop :=
  Unstarted p os ∨ ∃ last since, LatestOver os last since ∧ last.resource = p ∧
    ((l.ledger.completed.get? p = some last.locator ∧ Landed l last.locator) ∨
      .removed last.locator ∈ since)

/-- The ledger, and the retrievals that can still be completed, agree with what has happened. -/
structure Tracked (os : List Occurrence) (tokens : List FetchToken) (l : Loader) : Prop where
  sound : Sound l
  outstanding : tokens.Subperm (underWay os)
  single : ((underWay os).map FetchToken.resource).Nodup
  flying : ∀ p, (l.ledger.inFlight.get? p).isSome ↔ p ∈ (underWay os).map FetchToken.resource
  latest : ∀ token ∈ underWay os, ∃ between before, os = between ++ .started token :: before ∧
    Unstarted token.resource between
  grounded : ∀ p, p ∉ (underWay os).map FetchToken.resource → Grounded os l p

/-- The retrievals that frames and the host can still complete. -/
def Machine.tokens (m : Machine) : List FetchToken :=
  m.stack.filterMap Frame.token? ++ m.world.inHand

namespace Tracked

variable {os : List Occurrence} {tokens tokens' : List FetchToken} {l l' : Loader} {o : Occurrence}

theorem latest_cons (tracked : Tracked os tokens l) {token : FetchToken}
    (member : token ∈ underWay os)
    (other : ∀ t, o = .started t → t.resource ≠ token.resource) :
    ∃ between before, o :: os = between ++ .started token :: before ∧
      Unstarted token.resource between := by
  obtain ⟨between, before, split, unstarted⟩ := tracked.latest token member
  exact ⟨o :: between, before, by rw [split]; rfl, unstarted.cons other⟩

/-- A resource stays where it stands while others come and go. -/
theorem grounded_cons {p : PhysicalId} (grounded : Grounded os l p)
    (other : ∀ t, o = .started t → t.resource ≠ p)
    (completed : l'.ledger.completed.get? p = l.ledger.completed.get? p)
    (landed : ∀ locator, Landed l locator → Landed l' locator ∨ o = .removed locator) :
    Grounded (o :: os) l' p := by
  obtain unstarted | ⟨last, since, ⟨between, before, split, first, second⟩, rfl, at_hand⟩ := grounded
  · exact .inl (unstarted.cons other)
  · refine .inr ⟨last, o :: since, ⟨between, before, by rw [split]; rfl, first.cons other, second⟩, rfl, ?_⟩
    obtain ⟨done, there⟩ | removed := at_hand
    · obtain there | rfl := landed _ there
      · exact .inl ⟨completed.trans done, there⟩
      · exact .inr (List.mem_cons_self ..)
    · exact .inr (List.mem_cons_of_mem _ removed)

/-- Nothing is started or finished. -/
theorem carried (tracked : Tracked os tokens l) (plain : underWay (o :: os) = underWay os)
    (unstarted : ∀ t, o ≠ .started t) (sound : Sound l') (fewer : tokens'.Subperm tokens)
    (flying : ∀ p, (l'.ledger.inFlight.get? p).isSome = (l.ledger.inFlight.get? p).isSome)
    (completed : ∀ p, p ∉ (underWay os).map FetchToken.resource →
      l'.ledger.completed.get? p = l.ledger.completed.get? p)
    (landed : ∀ locator, Landed l locator → Landed l' locator ∨ o = .removed locator) :
    Tracked (o :: os) tokens' l' := by
  refine ⟨sound, ?_, ?_, ?_, ?_, ?_⟩ <;> rw [plain]
  · exact fewer.trans tracked.outstanding
  · exact tracked.single
  · intro p
    rw [flying]
    exact tracked.flying p
  · intro token member
    exact tracked.latest_cons member fun t same => absurd same (unstarted t)
  · intro p absent
    exact grounded_cons (tracked.grounded p absent) (fun t same => absurd same (unstarted t))
      (completed p absent) landed

/-- The ledger stays. -/
theorem carried_same (tracked : Tracked os tokens l) (plain : underWay (o :: os) = underWay os)
    (unstarted : ∀ t, o ≠ .started t) (ledger : l'.ledger = l.ledger) (orderly : Orderly l l')
    (fewer : tokens'.Subperm tokens) : Tracked (o :: os) tokens' l' := by
  obtain ⟨sound, grown⟩ := orderly tracked.sound
  refine tracked.carried plain unstarted sound fewer ?_ ?_ ?_
  · intro p
    rw [ledger]
  · intro p _
    rw [ledger]
  · intro locator landed
    exact .inl (grown.landed landed)

/-- A retrieval starts: the resource was not under way, and goes on to be. -/
theorem started (tracked : Tracked os tokens l) {token : FetchToken} {waiter : Waiter}
    (grounded : l.ledger.inFlight.get? token.resource = none) (orderly : Orderly l l')
    (ledger : l'.ledger = ⟨l.ledger.inFlight.insert token.resource [waiter],
      l.ledger.completed.erase token.resource⟩)
    (fewer : tokens'.Subperm (token :: tokens)) : Tracked (.started token :: os) tokens' l' := by
  obtain ⟨sound, grown⟩ := orderly tracked.sound
  have new : token.resource ∉ (underWay os).map FetchToken.resource := by
    intro member
    have flying := (tracked.flying _).mpr member
    rw [grounded] at flying
    cases flying
  refine ⟨sound, ?_, ?_, ?_, ?_, ?_⟩
  · exact fewer.trans ((List.subperm_cons token).mpr tracked.outstanding)
  · exact List.nodup_cons.mpr ⟨new, tracked.single⟩
  · intro p
    rw [ledger, OrderedMap.get?_insert, underWay, List.map_cons, List.mem_cons, ← tracked.flying p]
    split
    · rename_i here
      exact ⟨fun _ => .inl here.symm, fun _ => rfl⟩
    · rename_i other
      exact ⟨.inr, fun flying => flying.resolve_left (Ne.symm other)⟩
  · intro t member
    rcases List.mem_cons.mp member with rfl | earlier
    · exact ⟨[], os, rfl, .nil _⟩
    · apply tracked.latest_cons earlier
      rintro t' same here
      cases same
      exact new (here ▸ List.mem_map_of_mem earlier)
  · intro p absent
    rw [underWay, List.map_cons, List.mem_cons, not_or] at absent
    refine grounded_cons (tracked.grounded p absent.2) ?_ ?_ ?_
    · rintro t same rfl
      cases same
      exact absent.1 rfl
    · rw [ledger, OrderedMap.get?_erase, if_neg (Ne.symm absent.1)]
    · intro locator landed
      exact .inl (grown.landed landed)

/-- A retrieval is over: what it was started for is at hand. -/
theorem finished (tracked : Tracked os tokens l) {token : FetchToken} (orderly : Orderly l l')
    (ledger : l'.ledger = ⟨l.ledger.inFlight.erase token.resource,
      l.ledger.completed.insert token.resource token.locator⟩)
    (landed : Landed l' token.locator) (held : (token :: tokens').Subperm tokens) :
    Tracked (.finished token :: os) tokens' l' := by
  obtain ⟨sound, grown⟩ := orderly tracked.sound
  have still := held.trans tracked.outstanding
  have member : token ∈ underWay os := still.subset (List.mem_cons_self ..)
  have rest := List.perm_cons_erase member
  have single := (rest.map FetchToken.resource).nodup_iff.mp tracked.single
  rw [List.map_cons, List.nodup_cons] at single
  have others : ∀ p, p ∈ (underWay os).map FetchToken.resource ↔
      p = token.resource ∨ p ∈ ((underWay os).erase token).map FetchToken.resource := by
    intro p
    rw [(rest.map FetchToken.resource).mem_iff, List.map_cons, List.mem_cons]
  have unfinished : ∀ t, Occurrence.finished token ≠ .started t := by
    intro t same
    cases same
  refine ⟨sound, ?_, single.2, ?_, ?_, ?_⟩
  · exact (List.subperm_cons token).mp (still.trans rest.subperm)
  · intro p
    rw [ledger, OrderedMap.get?_erase, underWay]
    split
    · rename_i here
      subst here
      exact ⟨fun flying => (by cases flying), fun again => absurd again single.1⟩
    · rename_i other
      rw [tracked.flying p, others p]
      exact ⟨fun either => either.resolve_left (Ne.symm other), .inr⟩
  · intro t flying
    exact tracked.latest_cons (List.mem_of_mem_erase flying) fun _ same => absurd same (unfinished _)
  · intro p absent
    by_cases here : p = token.resource
    · subst here
      obtain ⟨between, before, split, unstarted⟩ := tracked.latest token member
      refine .inr ⟨token, [], ⟨between, before, by rw [split]; rfl, .nil _, unstarted⟩,
        rfl, .inl ⟨?_, landed⟩⟩
      rw [ledger, OrderedMap.get?_insert, if_pos rfl]
    · refine grounded_cons (tracked.grounded p ?_) (fun t same => absurd same (unfinished t)) ?_ ?_
      · rw [others, not_or]
        exact ⟨here, absent⟩
      · rw [ledger, OrderedMap.get?_insert, if_neg (Ne.symm here)]
      · intro locator landed
        exact .inl (grown.landed landed)

end Tracked

namespace Machine

theorem tokens_cons {w : World} {frame : Frame} (rest : List Frame) (other : frame.token? = none) :
    tokens ⟨w, frame :: rest⟩ = rest.filterMap Frame.token? ++ w.inHand := by
  rw [tokens, List.filterMap_cons_none other]

/-- The frames below keep what they have. -/
theorem tokens_perm (w : World) (frames rest : List Frame) :
    (tokens ⟨w, frames ++ rest⟩).Perm
      (rest.filterMap Frame.token? ++ (frames.filterMap Frame.token? ++ w.inHand)) := by
  rw [tokens, List.filterMap_append, ← List.append_assoc]
  exact List.perm_append_comm.append_right _

theorem tokens_append {w : World} {frames : List Frame} (rest : List Frame) {held : List FetchToken}
    (fewer : (frames.filterMap Frame.token? ++ w.inHand).Subperm held) :
    (tokens ⟨w, frames ++ rest⟩).Subperm (rest.filterMap Frame.token? ++ held) :=
  (tokens_perm w frames rest).subperm.trans ((List.Subperm.refl _).append fewer)

end Machine

/-- One frame's effect keeps ledger and past in agreement. -/
theorem Tracked.effect {os : List Occurrence} {w w' : World} {frame : Frame} {rest frames : List Frame}
    {o : Occurrence} (effect : Effect w frame o w' frames)
    (tracked : Tracked os (Machine.tokens ⟨w, frame :: rest⟩) w.loader) :
    Tracked (o :: os) (Machine.tokens ⟨w', frames ++ rest⟩) w'.loader := by
  have kept (other : frame.token? = none) (none : frames.filterMap Frame.token? = [])
      (inHand : w'.inHand = w.inHand) :
      (Machine.tokens ⟨w', frames ++ rest⟩).Subperm (Machine.tokens ⟨w, frame :: rest⟩) := by
    rw [Machine.tokens_cons rest other]
    apply Machine.tokens_append rest
    rw [none, inHand]
    exact .refl _
  cases effect with
  | calm tame ledger barriers orderly goals tokens other =>
    apply tracked.carried_same rfl (by simp) ledger orderly
    rw [Machine.tokens_cons rest other]
    exact Machine.tokens_append rest tokens
  | removed locator tame loader inHand goals none other =>
    refine tracked.carried rfl (by simp) ?_ (kept other none inHand) ?_ ?_ ?_ <;> rw [loader]
    · exact Loader.remove_sound tracked.sound locator
    · exact fun p => rfl
    · exact fun p _ => rfl
    · rintro x ⟨r, held, fetched⟩
      by_cases here : locator = x
      · exact .inr (by rw [here])
      · refine .inl ⟨r, ?_, fetched⟩
        rw [Loader.entry_remove, if_neg here]
        exact held
  | passed wanted calm issued before after none other =>
    exact tracked.carried_same rfl (by simp) calm.ledger calm.orderly (kept other none calm.inHand)
  | called number calm before after none other =>
    exact tracked.carried_same rfl (by simp) calm.ledger calm.orderly (kept other none calm.inHand)
  | opened same nonempty tame ledger barriers orderly inHand =>
    subst same
    exact tracked.carried_same rfl (by simp) ledger orderly (kept rfl rfl inHand)
  | joined waiter waiters tame flying ledger barriers orderly inHand goals none other =>
    have known := (tracked.flying _).mp (Option.isSome_iff_exists.mpr ⟨waiters, flying⟩)
    obtain ⟨sound, grown⟩ := orderly tracked.sound
    refine tracked.carried rfl (by simp) sound (kept other none inHand) ?_ ?_ ?_
    · intro p
      rw [ledger, OrderedMap.get?_insert]
      split
      · rename_i here
        rw [← here, flying]
        rfl
      · rfl
    · intro p absent
      rw [ledger, OrderedMap.get?_erase, if_neg]
      rintro rfl
      exact absent known
    · intro x landed
      exact .inl (grown.landed landed)
  | started waiter token tame same free stale ledger barriers orderly goals tokens other =>
    apply tracked.started free orderly ledger
    rw [Machine.tokens_cons rest other]
    exact (Machine.tokens_append rest tokens).trans List.perm_middle.subperm
  | arrived b tame ledger counted orderly inHand goals other =>
    refine tracked.carried_same rfl (by simp) ledger orderly (kept other ?_ inHand)
    obtain ⟨-, -, rfl⟩ | ⟨-, -, rfl⟩ := counted
    · cases (w.loader.barrier b).onDone <;> rfl
    · rfl
  | finished token tame same ledger barriers orderly landed inHand =>
    subst same
    refine tracked.finished orderly ledger landed ((List.subperm_cons token).mpr ?_)
    apply Machine.tokens_append rest
    have none (waiters : List Waiter) : (waiters.map fun waiter =>
        Frame.settled waiter.locator waiter.barrier).filterMap Frame.token? = [] := by
      simp [List.filterMap_map, Function.comp_def, Frame.token?]
    rw [none, inHand]
    exact .refl _

/-- The host's own steps touch neither. -/
theorem Tracked.acted {past : List Machine} {w : World}
    (tracked : Tracked (occurrences past) (Machine.tokens ⟨w, []⟩) w.loader) (action : Action) :
    Tracked (occurrences (⟨w, []⟩ :: past)) (Machine.tokens ⟨w, [.script .outer [action]]⟩) w.loader :=
  tracked.carried_same rfl (by simp [Machine.occurrence]) rfl (.refl _) (.refl _)

/-- What ledger and past have to do with each other at every moment. -/
theorem tracked_always {host : Action → Prop} {setup : Setup} {past : List Machine} {m : Machine}
    (run : Run host (.fresh setup) past m) :
    Tracked (occurrences past) m.tokens m.world.loader := by
  refine run.invariant (P := fun past m => Tracked (occurrences past) m.tokens m.world.loader)
    ?_ ?_ ?_
  · obtain ⟨loader, inHand, -⟩ := World.start_spec setup
    simp only [Machine.fresh, Machine.tokens, loader, inHand]
    refine ⟨Loader.new_sound _ _ _, List.Subperm.refl _, List.nodup_nil, ?_, ?_, ?_⟩
    · intro p
      exact ⟨fun flying => (by cases flying), fun member => (by cases member)⟩
    · intro token member
      cases member
    · intro p _
      exact .inl (.nil p)
  · intro past w frame rest _ tracked
    exact tracked.effect (frame.effect tracked.sound)
  · exact fun past w action _ _ tracked => tracked.acted action

/-- Whenever the fetcher is asked for a resource, no retrieval of it is under way, and an earlier one
has finished and what it was started for has been removed since. -/
theorem single_retrieval {host : Action → Prop} {setup : Setup} {past : List Machine} {m : Machine}
    (run : Run host (.fresh setup) past m) {token : FetchToken}
    (starts : m.occurrence = .started token) :
    token.resource = m.world.loader.resolver.physicalId token.locator ∧
    (∀ other ∈ underWay (occurrences past), other.resource ≠ token.resource) ∧
    (Unstarted token.resource (occurrences past) ∨
      ∃ last since, LatestOver (occurrences past) last since ∧ last.resource = token.resource ∧
        .removed last.locator ∈ since) ∧
    ((∀ locator, .removed locator ∉ occurrences past) →
      Unstarted token.resource (occurrences past)) := by
  have tracked := tracked_always run
  obtain ⟨w, stack⟩ := m
  cases stack with
  | nil => cases starts
  | cons frame rest =>
    have effect := frame.effect tracked.sound
    rw [show frame.occurrence w = .started token from starts] at effect
    cases effect with
    | started waiter _ tame same grounded stale =>
      have absent : token.resource ∉ (underWay (occurrences past)).map FetchToken.resource := by
        intro member
        have flying := (tracked.flying _).mpr member
        rw [grounded] at flying
        cases flying
      have earlier : Unstarted token.resource (occurrences past) ∨
          ∃ last since, LatestOver (occurrences past) last since ∧ last.resource = token.resource ∧
            .removed last.locator ∈ since := by
        obtain unstarted | ⟨last, since, ended, here, ⟨done, landed⟩ | removed⟩ :=
          tracked.grounded _ absent
        · exact .inl unstarted
        · exact absurd landed (stale _ done)
        · exact .inr ⟨last, since, ended, here, removed⟩
      refine ⟨?_, ?_, earlier, ?_⟩
      · rw [same]
      · intro other member here
        exact absent (here ▸ List.mem_map_of_mem member)
      · intro never
        apply earlier.resolve_right
        rintro ⟨last, since, ⟨between, before, split, -⟩, -, removed⟩
        exact never last.locator (split ▸ List.mem_append_left _ removed)

theorem single_retrieval_after_removal :
    ∃ past m, Run (fun _ => True) (.fresh (.lone .immediate)) past m ∧
      m.occurrence = .started ⟨⟨"mem:a"⟩, ⟨"mem:a"⟩⟩ ∧ ¬ Unstarted ⟨"mem:a"⟩ (occurrences past) ∧
      ∃ last since, LatestOver (occurrences past) last since ∧ last.resource = ⟨"mem:a"⟩ ∧
        .removed last.locator ∈ since := by
  have fresh : Run (fun _ => True) (.fresh (.lone .immediate)) [] (.fresh (.lone .immediate)) := .start
  have removed := fresh.played 40 [.useModules ["a"] "first" [], .remove "mem:a"]
    (fun _ _ => trivial) (by decide +kernel)
  have run := (removed.act (.useModules ["a"] "second" []) trivial).continued 5
  obtain ⟨-, -, earlier, -⟩ :=
    @single_retrieval _ _ _ _ run ⟨⟨"mem:a"⟩, ⟨"mem:a"⟩⟩ (by decide +kernel)
  refine ⟨_, _, run, by decide +kernel, ?_, earlier.resolve_left ?_⟩
  all_goals exact fun unstarted => unstarted ⟨⟨"mem:a"⟩, ⟨"mem:a"⟩⟩ (by decide +kernel) rfl

end ModuleLoader
