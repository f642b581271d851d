import ModuleLoader.Proofs.Padding.Awaiting

/-! A request with more identifiers than another one, none of the others with a meaning. What is done about the one
and about the other differs in lists that are carried along, and in the steps by which they are gone through. -/
namespace ModuleLoader

/-- One list is the other with something extra put in wherever a mark is set. -/
inductive Inserted {α : Type} (extra : α → Prop) : List Bool → List α → List α → Prop where
  | nil : Inserted extra [] [] []
  | kept {marks : List Bool} {xs ys : List α} (x : α) (rest : Inserted extra marks xs ys) :
      Inserted extra (false :: marks) (x :: xs) (x :: ys)
  | put {marks : List Bool} {xs ys : List α} {y : α} (fits : extra y) (rest : Inserted extra marks xs ys) :
      Inserted extra (true :: marks) xs (y :: ys)

namespace Inserted

variable {α β : Type} {extra : α → Prop} {marks more : List Bool} {xs ys xs' ys' : List α}

theorem map {f : α → β} {also : β → Prop} (each : ∀ x, extra x → also (f x))
    (inserted : Inserted extra marks xs ys) : Inserted also marks (xs.map f) (ys.map f) := by
  induction inserted with
  | nil => exact .nil
  | kept x rest ih => exact .kept (f x) ih
  | put fits rest ih => exact .put (each _ fits) ih

theorem append (inserted : Inserted extra marks xs ys) (last : Inserted extra more xs' ys') :
    Inserted extra (marks ++ more) (xs ++ xs') (ys ++ ys') := by
  induction inserted with
  | nil => exact last
  | kept x rest ih => exact .kept x ih
  | put fits rest ih => exact .put fits ih

/-- A list with nothing put in. -/
theorem self (xs : List α) : Inserted extra (List.replicate xs.length false) xs xs := by
  induction xs with
  | nil => exact .nil
  | cons x xs ih => exact .kept x ih

theorem eq_of_unmarked (inserted : Inserted extra marks xs ys) (unmarked : true ∉ marks) : ys = xs := by
  induction inserted with
  | nil => rfl
  | kept x rest ih => rw [ih fun marked => unmarked (List.mem_cons_of_mem _ marked)]
  | put fits rest ih => exact absurd (List.mem_cons_self ..) unmarked

theorem filterMap_id {marks : List Bool} {xs ys : List (Option α)} (inserted : Inserted (· = none) marks xs ys) :
    ys.filterMap id = xs.filterMap id := by
  induction inserted with
  | nil => rfl
  | kept x rest ih => rw [List.filterMap_cons, List.filterMap_cons, ih]
  | put fits rest ih =>
    subst fits
    exact ih

end Inserted

theorem unmarked_replicate (n : Nat) : true ∉ List.replicate n false := fun marked =>
  Bool.noConfusion (List.eq_of_mem_replicate marked)

mutual

/-- What goes on is the same, but that the request with the given number has identifiers without a meaning put in
where marks are set. -/
inductive Continuation.Padded (resolve : String → Option Locator → Option Locator) (n : Nat) (marks : List Bool) :
    Continuation → Continuation → Prop where
  | arrive (b : BarrierId) (r : RecordId) : Continuation.Padded resolve n marks (.arrive b r) (.arrive b r)
  | request {own : List Bool} {ids ids' : List String} {receiver receiver' : Receiver}
      (given : Receiver.Padded resolve n marks own receiver receiver')
      (inserted : Inserted (resolve · none = none) own ids ids') :
      Continuation.Padded resolve n marks (.request ids receiver) (.request ids' receiver')
  | preload {own : List Bool} {locators locators' : List (Option Locator)} {receiver receiver' : Receiver}
      (given : Receiver.Padded resolve n marks own receiver receiver')
      (inserted : Inserted (· = none) own locators locators') :
      Continuation.Padded resolve n marks (.preload locators receiver) (.preload locators' receiver')
  | gather {own : List Bool} {locators locators' : List (Option Locator)} {receiver receiver' : Receiver}
      (given : Receiver.Padded resolve n marks own receiver receiver')
      (inserted : Inserted (· = none) own locators locators') :
      Continuation.Padded resolve n marks (.gather locators receiver) (.gather locators' receiver')
  | call {callback : Callback} (other : callback.number ≠ n) :
      Continuation.Padded resolve n marks (.call callback) (.call callback)

/-- Only lists for the callback with the given number have something put in. -/
inductive Receiver.Padded (resolve : String → Option Locator → Option Locator) (n : Nat) (marks : List Bool) :
    List Bool → Receiver → Receiver → Prop where
  | host {own : List Bool} {callback : Callback} (asked : callback.number = n → own = marks)
      (other : callback.number ≠ n → true ∉ own) :
      Receiver.Padded resolve n marks own (.host callback) (.host callback)
  | discard {own : List Bool} {next next' : Continuation} (goes : Continuation.Padded resolve n marks next next')
      (unmarked : true ∉ own) : Receiver.Padded resolve n marks own (.discard next) (.discard next')

end

/-- A frame does the same, but that the request with the given number is padded. -/
inductive Frame.Padded (resolve : String → Option Locator → Option Locator) (n : Nat) (marks : List Bool) :
    Frame → Frame → Prop where
  | plain {f : Frame} (plain : f.carries = false) : Padded resolve n marks f f
  | load {locators : List Locator} {next next' : Continuation} (goes : next.Padded resolve n marks next') :
      Padded resolve n marks (.load locators next) (.load locators next')
  | resume {next next' : Continuation} (goes : next.Padded resolve n marks next') :
      Padded resolve n marks (.resume next) (.resume next')
  | preload {next next' : Continuation} (goes : next.Padded resolve n marks next') :
      Padded resolve n marks (.preload next) (.preload next')
  | request {referrer : Option Locator} {own : List Bool} {ids ids' : List String} {receiver receiver' : Receiver}
      (given : receiver.Padded resolve n marks own receiver')
      (inserted : Inserted (resolve · referrer = none) own ids ids') :
      Padded resolve n marks (.request referrer ids receiver) (.request referrer ids' receiver')
  | gather {done todo : List Bool} {locators locators' : List (Option Locator)}
      {interfaces interfaces' : List (Option Value)} {receiver receiver' : Receiver}
      (given : receiver.Padded resolve n marks (done ++ todo) receiver')
      (dealt : Inserted (· = none) done interfaces interfaces')
      (inserted : Inserted (· = none) todo locators locators') :
      Padded resolve n marks (.gather locators interfaces receiver) (.gather locators' interfaces' receiver')
  | collect {done todo : List Bool} {locators locators' : List (Option Locator)}
      {interfaces interfaces' : List (Option Value)} {receiver receiver' : Receiver}
      (given : receiver.Padded resolve n marks (done ++ false :: todo) receiver')
      (dealt : Inserted (· = none) done interfaces interfaces')
      (inserted : Inserted (· = none) todo locators locators') :
      Padded resolve n marks (.collect locators interfaces receiver) (.collect locators' interfaces' receiver')
  | deliver {own : List Bool} {interfaces interfaces' : List (Option Value)} {receiver receiver' : Receiver}
      (given : receiver.Padded resolve n marks own receiver')
      (dealt : Inserted (· = none) own interfaces interfaces') :
      Padded resolve n marks (.deliver receiver interfaces) (.deliver receiver' interfaces')

section

variable {resolve : String → Option Locator → Option Locator} {n : Nat} {marks : List Bool}

mutual

/-- What does not lead to the callback is its own padding. -/
theorem Continuation.Padded.self : ∀ {next : Continuation}, next.goal ≠ .callback n →
    next.Padded resolve n marks next
  | .arrive b r, _ => .arrive b r
  | .request ids receiver, other => by
    unfold Continuation.goal at other
    exact .request (Receiver.Padded.self other (unmarked_replicate _)) (.self ids)
  | .preload locators receiver, other => by
    unfold Continuation.goal at other
    exact .preload (Receiver.Padded.self other (unmarked_replicate _)) (.self locators)
  | .gather locators receiver, other => by
    unfold Continuation.goal at other
    exact .gather (Receiver.Padded.self other (unmarked_replicate _)) (.self locators)
  | .call callback, other => by
    unfold Continuation.goal at other
    exact .call fun same => other (congrArg Goal.callback same)

theorem Receiver.Padded.self : ∀ {receiver : Receiver} {own : List Bool}, receiver.goal ≠ .callback n →
    true ∉ own → receiver.Padded resolve n marks own receiver
  | .host callback, own, other, unmarked => by
    unfold Receiver.goal at other
    exact .host (fun same => absurd (congrArg Goal.callback same) other) fun _ => unmarked
  | .discard next, own, other, unmarked => by
    unfold Receiver.goal at other
    exact .discard (Continuation.Padded.self other) unmarked

end

theorem Frame.Padded.self {f : Frame} (other : Goal.callback n ∉ f.goals) : f.Padded resolve n marks f := by
  have single {g : Goal} (other : Goal.callback n ∉ [g]) : g ≠ .callback n :=
    fun same => other (same ▸ List.mem_singleton_self _)
  cases f with
  | load locators next => exact .load (.self (single other))
  | resume next => exact .resume (.self (single other))
  | preload next => exact .preload (.self (single other))
  | request referrer ids receiver => exact .request (.self (single other) (unmarked_replicate _)) (.self ids)
  | gather locators interfaces receiver =>
    refine .gather (.self (single other) fun marked => ?_) (.self interfaces) (.self locators)
    rcases List.mem_append.mp marked with marked | marked <;> exact unmarked_replicate _ marked
  | collect locators interfaces receiver =>
    refine .collect (.self (single other) fun marked => ?_) (.self interfaces) (.self locators)
    rcases List.mem_append.mp marked with marked | marked
    · exact unmarked_replicate _ marked
    · exact unmarked_replicate (locators.length + 1) marked
  | deliver receiver interfaces => exact .deliver (.self (single other) (unmarked_replicate _)) (.self interfaces)
  | _ => exact .plain rfl

end

/-- The points where entries come together wait for as many, and go on alike. -/
structure Table.Padded (resolve : String → Option Locator → Option Locator) (n : Nat) (marks : List Bool)
    (t t' : Table Barrier) : Prop where
  size : t'.size = t.size
  remaining : ∀ i, (t'.get i).remaining = (t.get i).remaining
  goesOn : ∀ i, Option.Rel (Continuation.Padded resolve n marks) (t.get i).onDone (t'.get i).onDone

/-- Nothing has happened to a session that does not happen to the other one as well, and what is still to be done is
the same but for the padded request. -/
structure Machine.Padded (resolve : String → Option Locator → Option Locator) (n : Nat) (marks : List Bool)
    (m m' : Machine) : Prop where
  stack : List.Forall₂ (Frame.Padded resolve n marks) m.stack m'.stack
  world : ∃ t, m'.world = m.world.awaiting t ∧ m.world.loader.barriers.Padded resolve n marks t

section

variable {resolve : String → Option Locator → Option Locator} {n : Nat} {marks : List Bool} {t t' : Table Barrier}

theorem Table.Padded.push (padded : t.Padded resolve n marks t') (remaining : Nat) {next next' : Continuation}
    (goes : next.Padded resolve n marks next') :
    (t.push ⟨remaining, some next⟩).Padded resolve n marks (t'.push ⟨remaining, some next'⟩) := by
  refine ⟨by rw [Table.size_push, Table.size_push, padded.size], fun i => ?_, fun i => ?_⟩
  · rw [Table.get_push, Table.get_push, padded.size]
    split
    · rfl
    · exact padded.remaining i
  · rw [Table.get_push, Table.get_push, padded.size]
    split
    · exact .some goes
    · exact padded.goesOn i

theorem Table.Padded.modify (padded : t.Padded resolve n marks t') (i : Nat) {f : Barrier → Barrier}
    (remaining : ∀ b b' : Barrier, b'.remaining = b.remaining → (f b').remaining = (f b).remaining)
    (goesOn : ∀ b b' : Barrier, Option.Rel (Continuation.Padded resolve n marks) b.onDone b'.onDone →
      Option.Rel (Continuation.Padded resolve n marks) (f b).onDone (f b').onDone) :
    (t.modify i f).Padded resolve n marks (t'.modify i f) := by
  refine ⟨by rw [Table.size_modify, Table.size_modify, padded.size], fun j => ?_, fun j => ?_⟩
  · rw [Table.get_modify, Table.get_modify, padded.size]
    split
    · exact remaining _ _ (padded.remaining j)
    · exact padded.remaining j
  · rw [Table.get_modify, Table.get_modify, padded.size]
    split
    · exact goesOn _ _ (padded.goesOn j)
    · exact padded.goesOn j

/-- An entry is counted at the same point, and if it is the last one, the same goes on. -/
theorem World.arrive_padded (w : World) (padded : w.loader.barriers.Padded resolve n marks t) (b : BarrierId)
    (loaded : Option RecordId) :
    Machine.Padded resolve n marks ⟨(w.arrive b loaded).1, (w.arrive b loaded).2⟩
      ⟨((w.awaiting t).arrive b loaded).1, ((w.awaiting t).arrive b loaded).2⟩ := by
  have counted (l : Loader) (barriers : l.barriers = w.loader.barriers) :
      ∃ t', ((l.awaiting t).countDown b).1 = (l.countDown b).1.awaiting t' ∧
        (l.countDown b).1.barriers.Padded resolve n marks t' ∧
        Option.Rel (Continuation.Padded resolve n marks) (l.countDown b).2 ((l.awaiting t).countDown b).2 := by
    rw [← barriers] at padded
    have same : ((l.awaiting t).barrier b).remaining = (l.barrier b).remaining := padded.remaining b.index
    unfold Loader.countDown
    dsimp only
    rw [same]
    split
    · refine ⟨_, rfl, padded.modify _ ?_ ?_, padded.goesOn b.index⟩
      · exact fun _ _ _ => rfl
      · exact fun _ _ _ => .none
    · refine ⟨_, rfl, padded.modify _ ?_ ?_, .none⟩
      · exact fun _ _ _ => rfl
      · exact fun _ _ goes => goes
  have frames {next next' : Option Continuation}
      (goes : Option.Rel (Continuation.Padded resolve n marks) next next') :
      List.Forall₂ (Frame.Padded resolve n marks) (next.map Frame.resume).toList
        (next'.map Frame.resume).toList := by
    cases goes with
    | none => exact .nil
    | some goes => exact .cons (.resume goes) .nil
  cases loaded with
  | none =>
    obtain ⟨t', after, later, goes⟩ := counted w.loader rfl
    exact ⟨frames goes, t', congrArg (fun l => { w with loader := l }) after, later⟩
  | some r =>
    have barriers : (w.loader.markReady r).barriers = w.loader.barriers := by
      unfold Loader.markReady
      split <;> rfl
    obtain ⟨t', after, later, goes⟩ := counted (w.loader.markReady r) barriers
    rw [← Loader.markReady_awaiting] at after goes
    exact ⟨frames goes, t', congrArg (fun l => { w with loader := l }) after, later⟩

/-- What a frame leaves that carries nothing does not lead to a callback that has been passed on before. -/
theorem Frame.leaves_self {w : World} {frame f : Frame} (sound : Loader.Sound w.loader) (issued : n < w.issued)
    (plain : frame.carries = false) (other : frame.meets = false) (member : f ∈ (frame.exec w).2) :
    f.Padded resolve n marks f := by
  have quiet (goals : frame.goals = []) : f.Padded resolve n marks f := by
    have effect := frame.effect sound
    have among (same : (frame.exec w).2.flatMap Frame.goals = []) : f.Padded resolve n marks f :=
      .plain (plain_of_goals (List.flatMap_eq_nil_iff.mp same f member))
    generalize frame.occurrence w = o at effect
    generalize (frame.exec w).1 = w' at effect
    generalize (frame.exec w).2 = frames at effect member among
    cases effect with
    | calm tame ledger barriers orderly same => exact among (same.trans goals)
    | removed locator tame loader inHand same => exact among (same.trans goals)
    | passed wanted calm later before after =>
      refine .self fun leads => ?_
      have here := List.mem_flatMap_of_mem member leads
      rw [after, List.mem_singleton] at here
      cases here
      exact Nat.lt_irrefl _ issued
    | called number calm before after => exact among after
    | opened same => cases same; cases plain
    | joined waiter waiters tame flying ledger barriers orderly inHand some => cases goals.symm.trans some
    | started waiter token tame same grounded stale ledger barriers orderly some => cases goals.symm.trans some
    | arrived b tame ledger counted orderly inHand some => cases goals.symm.trans some
    | finished token =>
      obtain ⟨waiter, -, rfl⟩ := List.mem_map.mp member
      exact .plain rfl
  cases frame with
  | entries locators b =>
    cases locators with
    | nil => cases member
    | cons locator rest =>
      rcases List.mem_append.mp member with new | last
      · obtain rfl | ⟨token, rfl⟩ := w.enter_frames locator b _ new <;> exact .plain rfl
      · exact List.mem_singleton.mp last ▸ .plain rfl
  | load | resume | request | preload | gather | collect | deliver => cases plain
  | settled => cases other
  | _ => exact quiet rfl

/-- A frame that does nothing about loads leaves them as they are. -/
theorem Frame.barriers_of_apart (w : World) {frame : Frame} (other : frame.meets = false) :
    (frame.exec w).1.loader.barriers = w.loader.barriers :=
  congrArg (fun done : World × List Frame => done.1.loader.barriers) (frame.exec_awaiting w w.loader.barriers other)

variable {w : World} {frame frame' : Frame}

/-- What does not touch loads goes on side by side. -/
theorem Machine.Padded.of_apart (padded : w.loader.barriers.Padded resolve n marks t) (apart : frame.meets = false)
    {frames' : List Frame} (same : frame'.exec (w.awaiting t) = (((frame.exec w).1.awaiting t), frames'))
    (leaves : List.Forall₂ (Frame.Padded resolve n marks) (frame.exec w).2 frames') :
    Machine.Padded resolve n marks ⟨(frame.exec w).1, (frame.exec w).2⟩
      ⟨(frame'.exec (w.awaiting t)).1, (frame'.exec (w.awaiting t)).2⟩ := by
  rw [same]
  exact ⟨leaves, t, rfl, (Frame.barriers_of_apart w apart).symm ▸ padded⟩

/-- An entry whose retrieval is over goes on in the same way. -/
theorem World.settle_padded (w : World) (padded : w.loader.barriers.Padded resolve n marks t) (locator : Locator)
    (b : BarrierId) :
    Machine.Padded resolve n marks ⟨(w.settle locator b).1, (w.settle locator b).2⟩
      ⟨((w.awaiting t).settle locator b).1, ((w.awaiting t).settle locator b).2⟩ := by
  have barriers : (w.loader.settledEntry locator).1.barriers = w.loader.barriers :=
    ((w.loader.settledEntry_edits locator).quiet id).barriers
  have entry : (w.awaiting t).loader.settledEntry locator = _ := w.loader.settledEntry_awaiting t locator
  rw [← barriers] at padded
  unfold settle
  rw [entry]
  clear entry barriers
  revert padded
  obtain ⟨l, settled⟩ := w.loader.settledEntry locator
  intro padded
  cases settled with
  | missing => exact arrive_padded { w with loader := l } padded b none
  | ready r => exact arrive_padded { w with loader := l } padded b (some r)
  | waits r dependencies => exact ⟨.cons (.load (.arrive b r)) .nil, t, rfl, padded⟩

/-- Both sessions take the next step side by side, unless an identifier without a meaning comes first. -/
theorem Frame.Padded.next (together : frame.Padded resolve n marks frame')
    (padded : w.loader.barriers.Padded resolve n marks t) (sound : Loader.Sound w.loader)
    (meaning : w.loader.resolve = resolve) (issued : n < w.issued) (uncalled : frame.occurrence w ≠ .called n) :
    (∃ locators' interfaces' receiver', frame' = .gather (none :: locators') interfaces' receiver' ∧
      frame.Padded resolve n marks (.gather locators' (interfaces' ++ [none]) receiver')) ∨
    Machine.Padded resolve n marks ⟨(frame.exec w).1, (frame.exec w).2⟩
      ⟨(frame'.exec (w.awaiting t)).1, (frame'.exec (w.awaiting t)).2⟩ := by
  have one {f f' : Frame} (leaves : f.Padded resolve n marks f') :
      List.Forall₂ (Frame.Padded resolve n marks) [f] [f'] := .cons leaves .nil
  cases together with
  | plain plain =>
    refine .inr ?_
    by_cases meets : frame.meets = true
    · cases frame with
      | settled locator b => exact World.settle_padded w padded locator b
      | load | resume => cases plain
      | _ => cases meets
    · refine .of_apart padded (Bool.eq_false_iff.mpr meets)
        (frame.exec_awaiting w t (Bool.eq_false_iff.mpr meets)) (List.forall₂_same.mpr fun f member => ?_)
      exact Frame.leaves_self sound issued plain (Bool.eq_false_iff.mpr meets) member
  | @load locators next next' goes =>
    refine .inr ?_
    have needs : (w.awaiting t).loader.needsLoading = w.loader.needsLoading := rfl
    simp only [Frame.exec, World.load, needs]
    split
    · exact ⟨one (.resume goes), t, rfl, padded⟩
    · have same : (w.awaiting t).loader.barriers.size = w.loader.barriers.size := padded.size
      simp only [Loader.newBarrier, same]
      exact ⟨one (.plain rfl), _, rfl, padded.push _ goes⟩
  | @resume next next' goes =>
    refine .inr ?_
    cases goes with
    | arrive b r => exact w.arrive_padded padded b (some r)
    | request given inserted => exact ⟨one (.request given inserted), t, rfl, padded⟩
    | preload given inserted => exact ⟨one (.preload (.gather given inserted)), t, rfl, padded⟩
    | gather given inserted =>
      refine ⟨one (.gather ?_ .nil inserted), t, rfl, padded⟩
      exact given
    | call other =>
      exact .of_apart padded rfl (Frame.exec_awaiting w t rfl) (one (.plain rfl))
  | @preload next next' goes =>
    refine .inr ?_
    have queued : (w.awaiting t).loader.preloads = w.loader.preloads := rfl
    simp only [Frame.exec, World.preload, queued]
    split
    · exact ⟨one (.resume goes), t, rfl, padded⟩
    · exact ⟨one (.request (.discard goes (unmarked_replicate _)) (.self _)), t, rfl, padded⟩
  | @request referrer own ids ids' receiver receiver' given inserted =>
    have locators : Inserted (· = none) own (ids.map (w.loader.resolve · referrer))
        (ids'.map (w.loader.resolve · referrer)) := inserted.map fun id nowhere => meaning ▸ nowhere
    have same : (w.awaiting t).loader.resolve = w.loader.resolve := rfl
    simp only [Frame.exec, same, locators.filterMap_id]
    exact .inr ⟨one (.load (.preload given locators)), t, rfl, padded⟩
  | @gather done todo _ _ interfaces interfaces' receiver receiver' given dealt inserted =>
    cases inserted with
    | nil =>
      rw [List.append_nil] at given
      exact .inr ⟨one (.deliver given dealt), t, rfl, padded⟩
    | @kept todo rest rest' k inserted =>
      refine .inr ?_
      have entry : Loader.entry? (w.awaiting t).loader = w.loader.entry? := rfl
      unfold Frame.exec World.gather
      dsimp only
      rw [entry]
      cases k.bind w.loader.entry? with
      | some r => exact ⟨.cons (.plain rfl) (one (.collect given dealt inserted)), t, rfl, padded⟩
      | none =>
        refine ⟨one (.gather ?_ (dealt.append (.kept _ .nil)) inserted), t, rfl, padded⟩
        rw [List.append_assoc]
        exact given
    | @put todo rest rest' k fits inserted =>
      subst fits
      have more := dealt.append (.put rfl .nil)
      rw [List.append_nil] at more
      refine .inl ⟨_, _, _, rfl, .gather ?_ more inserted⟩
      rw [List.append_assoc]
      exact given
  | @collect done todo _ _ _ _ receiver receiver' given dealt inserted =>
    refine .inr ⟨one (.gather ?_ (dealt.append (.kept _ .nil)) inserted), t, rfl, padded⟩
    rw [List.append_assoc]
    exact given
  | @deliver own interfaces interfaces' receiver receiver' given dealt =>
    refine .inr ?_
    cases given with
    | @host _ callback asked other =>
      have unasked : callback.number ≠ n := fun same => uncalled (congrArg Occurrence.called same)
      obtain rfl := dealt.eq_of_unmarked (other unasked)
      exact .of_apart padded rfl (Frame.exec_awaiting w t rfl) (one (.plain rfl))
    | discard goes unmarked => exact ⟨one (.resume goes), t, rfl, padded⟩

end

end ModuleLoader
