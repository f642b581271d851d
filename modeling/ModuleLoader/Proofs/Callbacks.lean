import ModuleLoader.Proofs.Effects.Exec

/-! No callback is lost or repeated. Whatever waits is counted by the point it waits at, from the
retrievals under way through nested loads down to the callback. -/
namespace ModuleLoader

open Loader (Sound)

def Occurrence.passes? : Occurrence → Option Nat
  | .passed number _ => some number
  | _ => Option.none

def Occurrence.calls? : Occurrence → Option Nat
  | .called number => some number
  | _ => Option.none

/-- The numbers of the callbacks that have been passed on. -/
def passedOn (os : List Occurrence) : List Nat := os.filterMap Occurrence.passes?

/-- The numbers of the callbacks that have been called. -/
def calledBack (os : List Occurrence) : List Nat := os.filterMap Occurrence.calls?

/-- Where those go on who wait for retrievals. -/
def Ledger.goals (ledger : Ledger) : List Goal :=
  ledger.inFlight.entries.flatMap fun entry => entry.2.map fun waiter => .barrier waiter.barrier

/-- Where loads go on whose entries have not all come together. -/
def Loader.goals (l : Loader) : List Goal :=
  l.barriers.cells.toList.filterMap fun barrier => barrier.onDone.map Continuation.goal

/-- How often a goal is still to be reached. -/
def held (frames : List Frame) (l : Loader) (g : Goal) : Nat :=
  (frames.flatMap Frame.goals).count g + l.ledger.goals.count g + l.goals.count g

theorem held_cons (frame : Frame) (rest : List Frame) (l : Loader) (g : Goal) :
    held (frame :: rest) l g = frame.goals.count g + held rest l g := by
  rw [held, held, List.flatMap_cons, List.count_append]
  omega

theorem held_append (frames rest : List Frame) (l : Loader) (g : Goal) :
    held (frames ++ rest) l g = (frames.flatMap Frame.goals).count g + held rest l g := by
  rw [held, held, List.flatMap_append, List.count_append]
  omega

/-! The ledger. -/

namespace Ledger

variable (ledger : Ledger) (completed : OrderedMap PhysicalId Locator)

theorem goals_joined {p : PhysicalId} {waiters : List Waiter} (waiter : Waiter) (g : Goal)
    (flying : ledger.inFlight.get? p = some waiters) :
    (goals ⟨ledger.inFlight.insert p (waiters ++ [waiter]), completed⟩).count g =
      ledger.goals.count g + [Goal.barrier waiter.barrier].count g := by
  obtain ⟨before, after, split, placed, -⟩ := OrderedMap.entries_split flying
  simp only [goals, placed]
  simp only [split, List.flatMap_append, List.flatMap_cons, List.count_append, List.map_append,
    List.map_cons, List.map_nil]
  omega

theorem goals_started {p : PhysicalId} (waiter : Waiter) (g : Goal)
    (grounded : ledger.inFlight.get? p = none) :
    (goals ⟨ledger.inFlight.insert p [waiter], completed⟩).count g =
      ledger.goals.count g + [Goal.barrier waiter.barrier].count g := by
  simp only [goals, OrderedMap.entries_insert_of_absent grounded, List.flatMap_append,
    List.flatMap_cons, List.flatMap_nil, List.append_nil, List.count_append, List.map_cons,
    List.map_nil]

theorem goals_finished (p : PhysicalId) (g : Goal) :
    (goals ⟨ledger.inFlight.erase p, completed⟩).count g +
      (((ledger.inFlight.get? p).getD []).map fun waiter => Goal.barrier waiter.barrier).count g =
      ledger.goals.count g := by
  cases flying : ledger.inFlight.get? p with
  | none =>
    simp only [goals, OrderedMap.erase_of_absent flying, Option.getD_none, List.map_nil,
      List.count_nil, Nat.add_zero]
  | some waiters =>
    obtain ⟨before, after, split, -, dropped⟩ := OrderedMap.entries_split flying
    simp only [goals, dropped]
    simp only [split, List.flatMap_append, List.flatMap_cons, List.count_append, Option.getD_some]
    omega

end Ledger

/-! The points where entries come together. -/

namespace Loader

variable {l l' : Loader}

theorem barrier_outside {b : BarrierId} (outside : l.barriers.size ≤ b.index) :
    l.barrier b = ⟨0, none⟩ := by
  simp only [barrier, Table.get, Array.getD_eq_getD_getElem?]
  rw [Array.getElem?_eq_none outside]
  rfl

theorem barrier_inside {b : BarrierId} (waiting : (l.barrier b).remaining ≠ 0) :
    b.index < l.barriers.size := by
  rcases Nat.lt_or_ge b.index l.barriers.size with inside | outside
  · exact inside
  · rw [barrier_outside outside] at waiting
    exact absurd rfl waiting

/-- Where something is still to go on there is a point that entries come together at. -/
theorem inside_of_onDone {b : BarrierId} {next : Continuation}
    (waits : (l.barrier b).onDone = some next) : b.index < l.barriers.size := by
  rcases Nat.lt_or_ge b.index l.barriers.size with inside | outside
  · exact inside
  · rw [barrier_outside outside] at waits
    cases waits

theorem barrier_opened {opened : Barrier} (barriers : l'.barriers = l.barriers.push opened)
    (b : BarrierId) :
    l'.barrier b = if b.index = l.barriers.size then opened else l.barrier b := by
  rw [barrier, barriers, Table.get_push]
  rfl

theorem barrier_changed {b : BarrierId} {f : Barrier → Barrier} (inside : b.index < l.barriers.size)
    (barriers : l'.barriers = l.barriers.modify b.index f) (x : BarrierId) :
    l'.barrier x = if x = b then f (l.barrier x) else l.barrier x := by
  obtain ⟨i⟩ := b
  obtain ⟨j⟩ := x
  rw [barrier, barriers, Table.get_modify]
  simp only [BarrierId.mk.injEq, barrier]
  by_cases same : i = j
  · subst same
    rw [if_pos ⟨rfl, inside⟩, if_pos rfl]
  · rw [if_neg (same ·.1), if_neg (Ne.symm same)]

theorem goals_opened {opened : Barrier} (barriers : l'.barriers = l.barriers.push opened) (g : Goal) :
    l'.goals.count g =
      l.goals.count g + (opened.onDone.map Continuation.goal).toList.count g := by
  rw [goals, goals, barriers, Table.push, Array.toList_push, List.filterMap_append, List.count_append]
  obtain ⟨remaining, onDone⟩ := opened
  cases onDone <;> rfl

theorem goals_changed {b : BarrierId} {f : Barrier → Barrier} (inside : b.index < l.barriers.size)
    (barriers : l'.barriers = l.barriers.modify b.index f) (g : Goal) :
    l'.goals.count g + ((l.barrier b).onDone.map Continuation.goal).toList.count g =
      l.goals.count g + ((f (l.barrier b)).onDone.map Continuation.goal).toList.count g := by
  obtain ⟨before, after, split, changed⟩ := Table.split_of_lt inside
  have counted (barrier : Barrier) :
      ((before ++ barrier :: after).filterMap fun barrier =>
        barrier.onDone.map Continuation.goal).count g =
      (before.filterMap fun barrier => barrier.onDone.map Continuation.goal).count g +
        (barrier.onDone.map Continuation.goal).toList.count g +
        (after.filterMap fun barrier => barrier.onDone.map Continuation.goal).count g := by
    rw [List.filterMap_append, List.filterMap_cons, List.count_append]
    cases barrier.onDone with
    | none => simp
    | some onDone =>
      simp only [Option.map_some, Option.toList_some, List.count_cons, List.count_nil]
      omega
  rw [goals, goals, barriers, changed, split, counted, counted]
  simp only [barrier]
  omega

end Loader

/-- Each load waits for just as many entries as there are on their way to it, and goes on to where it
was itself waited for. Each callback is on its way until it is called. -/
structure Linked (os : List Occurrence) (frames : List Frame) (w : World) : Prop where
  balance : ∀ b, held frames w.loader (.barrier b) = (w.loader.barrier b).remaining
  live : ∀ b, (w.loader.barrier b).onDone = none ↔ (w.loader.barrier b).remaining = 0
  nested : ∀ b onDone outer, (w.loader.barrier b).onDone = some onDone →
    onDone.goal = .barrier outer → outer.index < b.index
  callbacks : ∀ n, (calledBack os).count n + held frames w.loader (.callback n) = (passedOn os).count n
  issued : ∀ n ∈ passedOn os, n < w.issued
  distinct : (passedOn os).Nodup

namespace Linked

variable {os : List Occurrence} {frames frames' : List Frame} {w w' : World} {o : Occurrence}

/-- What the points where entries come together tell of themselves goes on as long as they stay. -/
theorem standing (linked : Linked os frames w) (barriers : w'.loader.barriers = w.loader.barriers) :
    (∀ b, (w'.loader.barrier b).onDone = none ↔ (w'.loader.barrier b).remaining = 0) ∧
      ∀ b onDone outer, (w'.loader.barrier b).onDone = some onDone →
        onDone.goal = .barrier outer → outer.index < b.index := by
  have barrier (b : BarrierId) : w'.loader.barrier b = w.loader.barrier b :=
    congrArg (Table.get · b.index) barriers
  exact ⟨fun b => barrier b ▸ linked.live b, fun b => barrier b ▸ linked.nested b⟩

/-- The points where entries come together stay, and what is held moves about. -/
theorem moved (linked : Linked os frames w) (plain : o.passes? = none) (uncalled : o.calls? = none)
    (barriers : w'.loader.barriers = w.loader.barriers) (issued : w.issued ≤ w'.issued)
    (same : ∀ g, held frames' w'.loader g = held frames w.loader g) : Linked (o :: os) frames' w' := by
  have barrier (b : BarrierId) : w'.loader.barrier b = w.loader.barrier b :=
    congrArg (Table.get · b.index) barriers
  have passed : passedOn (o :: os) = passedOn os := List.filterMap_cons_none plain
  have called : calledBack (o :: os) = calledBack os := List.filterMap_cons_none uncalled
  obtain ⟨live, nested⟩ := linked.standing barriers
  refine ⟨?_, live, nested, ?_, ?_, ?_⟩
  · intro b
    rw [same, barrier]
    exact linked.balance b
  · intro n
    rw [called, passed, same]
    exact linked.callbacks n
  · intro n member
    exact Nat.lt_of_lt_of_le (linked.issued n (passed ▸ member)) issued
  · exact passed.symm ▸ linked.distinct

/-- A callback that is passed on is new, and on its way from then on. -/
theorem passed (linked : Linked os frames w) {wanted : List Locator} (calm : w.Calm w')
    (issued : w.issued < w'.issued)
    (more : ∀ g, held frames' w'.loader g = held frames w.loader g + [Goal.callback w.issued].count g) :
    Linked (.passed w.issued wanted :: os) frames' w' := by
  have barrier (b : BarrierId) : w'.loader.barrier b = w.loader.barrier b :=
    congrArg (Table.get · b.index) calm.barriers
  obtain ⟨live, nested⟩ := linked.standing calm.barriers
  refine ⟨?_, live, nested, ?_, ?_, ?_⟩
  · intro b
    rw [more, barrier, linked.balance]
    rfl
  · intro n
    have before := linked.callbacks n
    have counted : (passedOn (.passed w.issued wanted :: os)).count n =
        (passedOn os).count n + [w.issued].count n := by
      rw [List.count_singleton]
      exact List.count_cons
    have called : calledBack (.passed w.issued wanted :: os) = calledBack os := rfl
    have goal : [Goal.callback w.issued].count (.callback n) = [w.issued].count n := by
      simp only [List.count_singleton, beq_iff_eq, Goal.callback.injEq]
    rw [more, counted, called, goal]
    omega
  · intro n member
    rcases List.mem_cons.mp member with rfl | earlier
    · exact issued
    · exact Nat.lt_trans (linked.issued n earlier) issued
  · refine List.nodup_cons.mpr ⟨?_, linked.distinct⟩
    intro again
    exact Nat.lt_irrefl _ (linked.issued _ again)

/-- A callback that is called is on its way no longer. -/
theorem called (linked : Linked os frames w) {number : Nat} (calm : w.Calm w')
    (less : ∀ g, held frames' w'.loader g + [Goal.callback number].count g = held frames w.loader g) :
    Linked (.called number :: os) frames' w' := by
  have barrier (b : BarrierId) : w'.loader.barrier b = w.loader.barrier b :=
    congrArg (Table.get · b.index) calm.barriers
  obtain ⟨live, nested⟩ := linked.standing calm.barriers
  refine ⟨?_, live, nested, ?_, ?_, linked.distinct⟩
  · intro b
    rw [barrier, ← linked.balance, ← less]
    rfl
  · intro n
    have before := linked.callbacks n
    have counted : (calledBack (.called number :: os)).count n =
        (calledBack os).count n + [number].count n := by
      rw [List.count_singleton]
      exact List.count_cons
    have passed : passedOn (.called number :: os) = passedOn os := rfl
    have goal : [Goal.callback number].count (.callback n) = [number].count n := by
      simp only [List.count_singleton, beq_iff_eq, Goal.callback.injEq]
    rw [← less, goal] at before
    rw [counted, passed]
    omega
  · intro n member
    exact Nat.lt_of_lt_of_le (linked.issued n member) calm.issued

/-- What is still to be reached is a point that waits, so it has been there before. -/
theorem inside (linked : Linked os frames w) {b : BarrierId}
    (waiting : 0 < held frames w.loader (.barrier b)) : b.index < w.loader.barriers.size := by
  apply Loader.barrier_inside
  rw [← linked.balance b]
  exact Nat.ne_of_gt waiting

/-- A load begins: it waits for its entries, and what it goes on to is waited for already. -/
theorem opened (linked : Linked os frames w) {k : Nat} {onDone : Continuation} (nonempty : k ≠ 0)
    (tame : w.Tame w') (barriers : w'.loader.barriers = w.loader.barriers.push ⟨k, some onDone⟩)
    (waiting : 0 < held frames w.loader onDone.goal)
    (more : ∀ g, held frames' w'.loader g = held frames w.loader g +
      (List.replicate k (Goal.barrier ⟨w.loader.barriers.size⟩)).count g) :
    Linked (.none :: os) frames' w' := by
  have barrier := Loader.barrier_opened barriers
  have outside : (w.loader.barrier ⟨w.loader.barriers.size⟩).remaining = 0 :=
    Decidable.byContradiction fun inside => Nat.lt_irrefl _ (Loader.barrier_inside inside)
  refine ⟨?_, ?_, ?_, ?_, ?_, linked.distinct⟩
  · intro b
    rw [more, barrier, linked.balance, List.count_replicate]
    obtain ⟨i⟩ := b
    by_cases here : i = w.loader.barriers.size
    · subst here
      rw [if_pos (by simp), if_pos rfl, outside, Nat.zero_add]
    · rw [if_neg (by simpa using Ne.symm here), if_neg here, Nat.add_zero]
  · intro b
    rw [barrier]
    split
    · exact ⟨fun absent => (by cases absent), fun zero => absurd zero nonempty⟩
    · exact linked.live b
  · intro b next outer
    rw [barrier]
    split
    · rename_i here
      intro same goal
      cases same
      rw [here]
      exact linked.inside (goal ▸ waiting)
    · exact linked.nested b next outer
  · intro n
    rw [more, List.count_replicate, if_neg (by simp), Nat.add_zero]
    exact linked.callbacks n
  · intro n member
    exact Nat.lt_of_lt_of_le (linked.issued n member) tame.issued

/-- An entry arrives: its load waits for one less, and is over when there is none left. -/
theorem arrived (linked : Linked os frames w) {b : BarrierId} {f : Barrier → Barrier}
    (tame : w.Tame w') (barriers : w'.loader.barriers = w.loader.barriers.modify b.index f)
    (remaining : (f (w.loader.barrier b)).remaining = (w.loader.barrier b).remaining - 1)
    (onDone : (f (w.loader.barrier b)).onDone =
      if (w.loader.barrier b).remaining - 1 = 0 then none else (w.loader.barrier b).onDone)
    (waiting : 0 < held frames w.loader (.barrier b))
    (less : ∀ g, held frames' w'.loader g + [Goal.barrier b].count g = held frames w.loader g) :
    Linked (.none :: os) frames' w' := by
  have barrier := Loader.barrier_changed (linked.inside waiting) barriers
  refine ⟨?_, ?_, ?_, ?_, ?_, linked.distinct⟩
  · intro x
    have before := linked.balance x
    rw [← less, List.count_singleton] at before
    rw [barrier]
    split
    · rename_i here
      subst here
      rw [if_pos (by simp)] at before
      rw [remaining]
      omega
    · rename_i other
      rw [if_neg (by simpa using Ne.symm other)] at before
      exact before
  · intro x
    rw [barrier]
    split
    · rename_i here
      subst here
      have live := linked.live x
      have balance := linked.balance x
      rw [onDone, remaining]
      split
      · rename_i last
        exact ⟨fun _ => last, fun _ => rfl⟩
      · rename_i left
        rw [live]
        omega
    · exact linked.live x
  · intro x next outer
    rw [barrier]
    split
    · rename_i here
      subst here
      rw [onDone]
      split
      · intro absent
        cases absent
      · exact linked.nested x next outer
    · exact linked.nested x next outer
  · intro n
    have before := linked.callbacks n
    rw [← less, List.count_singleton, if_neg (by simp), Nat.add_zero] at before
    exact before
  · intro n member
    exact Nat.lt_of_lt_of_le (linked.issued n member) tame.issued

end Linked

theorem Linked.effect {os : List Occurrence} {w w' : World} {frame : Frame} {rest frames : List Frame}
    {o : Occurrence} (effect : Effect w frame o w' frames) (linked : Linked os (frame :: rest) w) :
    Linked (o :: os) (frames ++ rest) w' := by
  have still (ledger : w'.loader.ledger = w.loader.ledger)
      (barriers : w'.loader.barriers = w.loader.barriers) (fs : List Frame) (g : Goal) :
      held fs w'.loader g = held fs w.loader g := by
    rw [held, held, Loader.goals, Loader.goals, ledger, barriers]
  have same (ledger : w'.loader.ledger = w.loader.ledger)
      (barriers : w'.loader.barriers = w.loader.barriers)
      (goals : frames.flatMap Frame.goals = frame.goals) (g : Goal) :
      held (frames ++ rest) w'.loader g = held (frame :: rest) w.loader g := by
    rw [still ledger barriers, held_append, held_cons, goals]
  cases effect with
  | calm tame ledger barriers orderly goals =>
    exact linked.moved rfl rfl barriers tame.issued (same ledger barriers goals)
  | removed locator tame loader inHand goals =>
    refine linked.moved rfl rfl (by rw [loader]; rfl) tame.issued (same ?_ ?_ goals) <;> rw [loader]
    · rfl
    · rfl
  | passed wanted calm issued before after =>
    refine linked.passed calm issued fun g => ?_
    rw [still calm.ledger calm.barriers, held_append, held_cons, before, after, List.count_nil]
    omega
  | called number calm before after =>
    refine linked.called calm fun g => ?_
    rw [still calm.ledger calm.barriers, held_append, held_cons, before, after, List.count_nil]
    omega
  | @opened _ wanted locators onDone loads nonempty tame ledger barriers orderly inHand =>
    subst loads
    refine linked.opened (by simpa using nonempty) tame barriers ?_ fun g => ?_
    · rw [held_cons, Frame.goals, List.count_singleton_self]
      omega
    · have more := Loader.goals_opened barriers g
      simp only [Option.map_some, Option.toList_some] at more
      rw [held_append, held_cons, held, held, more, ledger]
      simp only [List.flatMap_cons, List.flatMap_nil, List.append_nil, Frame.goals]
      omega
  | joined waiter waiters tame flying ledger barriers orderly inHand goals =>
    refine linked.moved rfl rfl barriers tame.issued fun g => ?_
    have more := w.loader.ledger.goals_joined
      (w.loader.ledger.completed.erase (w.loader.resolver.physicalId waiter.locator)) waiter g flying
    rw [held_append, held_cons, held, held, ledger, more, Loader.goals, Loader.goals, barriers, goals]
    simp only [List.count_cons, List.count_nil]
    omega
  | started waiter token tame here grounded stale ledger barriers orderly goals =>
    refine linked.moved rfl rfl barriers tame.issued fun g => ?_
    have more := w.loader.ledger.goals_started
      (w.loader.ledger.completed.erase token.resource) waiter g grounded
    rw [held_append, held_cons, held, held, ledger, more, Loader.goals, Loader.goals, barriers, goals]
    simp only [List.count_cons, List.count_nil]
    omega
  | arrived b tame ledger counted orderly inHand goals =>
    have waiting : 0 < held (frame :: rest) w.loader (.barrier b) := by
      rw [held_cons, goals, List.count_singleton_self]
      omega
    have inside := linked.inside waiting
    obtain ⟨last, barriers, rfl⟩ | ⟨more, barriers, rfl⟩ := counted
    · refine linked.arrived tame barriers last.symm (if_pos last).symm waiting fun g => ?_
      have less := Loader.goals_changed inside barriers g
      have resumed : ((w.loader.barrier b).onDone.map Frame.resume).toList.flatMap Frame.goals =
          ((w.loader.barrier b).onDone.map Continuation.goal).toList := by
        cases (w.loader.barrier b).onDone <;> rfl
      rw [held_append, held_cons, held, held, ledger, goals, resumed]
      simp only [Option.map_none, Option.toList_none, List.count_nil] at less
      omega
    · refine linked.arrived tame barriers rfl (if_neg more).symm waiting fun g => ?_
      have kept := Loader.goals_changed inside barriers g
      rw [held_append, held_cons, held, held, ledger, goals]
      simp only [List.flatMap_nil, List.count_nil] at kept ⊢
      omega
  | finished token tame here ledger barriers =>
    refine linked.moved rfl rfl barriers tame.issued fun g => ?_
    subst here
    have less := w.loader.ledger.goals_finished
      (w.loader.ledger.completed.insert token.resource token.locator) token.resource g
    have settled (waiters : List Waiter) : (waiters.map fun waiter =>
        Frame.settled waiter.locator waiter.barrier).flatMap Frame.goals =
        waiters.map fun waiter => .barrier waiter.barrier := by
      rw [List.flatMap_map]
      exact List.map_eq_flatMap.symm
    rw [held_append, held_cons, held, held, ledger, Loader.goals, Loader.goals, barriers, settled]
    simp only [Frame.goals, List.count_nil]
    omega

theorem Linked.acted {past : List Machine} {w : World} (linked : Linked (occurrences past) [] w)
    (action : Action) :
    Linked (occurrences (⟨w, []⟩ :: past)) [.script .outer [action]] w :=
  linked.moved rfl rfl rfl (Nat.le_refl _) fun _ => rfl

theorem Linked.fresh (setup : Setup) : Linked [] [] (World.start setup) := by
  obtain ⟨loader, -⟩ := World.start_spec setup
  have barrier (b : BarrierId) :
      (Loader.new setup.config setup.resolver setup.sink).barrier b = ⟨0, none⟩ := rfl
  refine ⟨?_, ?_, ?_, ?_, ?_, List.nodup_nil⟩
  · intro b
    rw [loader, barrier]
    rfl
  · intro b
    rw [loader, barrier]
    exact ⟨fun _ => rfl, fun _ => rfl⟩
  · intro b onDone outer absent
    rw [loader, barrier] at absent
    cases absent
  · intro n
    rw [loader]
    rfl
  · intro n member
    cases member

theorem linked_always {host : Action → Prop} {setup : Setup} {past : List Machine} {m : Machine}
    (run : Run host (.fresh setup) past m) : Linked (occurrences past) m.stack m.world := by
  refine run.invariant (P := fun past m => Linked (occurrences past) m.stack m.world) ?_ ?_ ?_
  · exact .fresh setup
  · intro past w frame rest run linked
    exact linked.effect (frame.effect run.sound)
  · exact fun past w action _ _ linked => linked.acted action

/-- What waits in the loads that have begun. -/
theorem Loader.mem_goals {l : Loader} {g : Goal} :
    g ∈ l.goals ↔ ∃ b onDone, (l.barrier b).onDone = some onDone ∧ onDone.goal = g := by
  rw [goals, List.mem_filterMap]
  constructor
  · rintro ⟨cell, member, found⟩
    obtain ⟨i, inside, here⟩ := List.getElem_of_mem member
    obtain ⟨onDone, done, goal⟩ := Option.map_eq_some_iff.mp found
    refine ⟨⟨i⟩, onDone, ?_, goal⟩
    rw [barrier, Table.get, Array.getD_eq_getD_getElem?, ← Array.getElem?_toList,
      List.getElem?_eq_getElem inside, here]
    exact done
  · rintro ⟨b, onDone, done, goal⟩
    obtain ⟨before, after, split, -⟩ := Table.split_of_lt (inside_of_onDone done)
    refine ⟨l.barrier b, ?_, by rw [done, Option.map_some, goal]⟩
    rw [split]
    exact List.mem_append_right _ (List.mem_cons_self ..)

/-- When nothing is left to do and no retrieval is under way, no load is left waiting. -/
theorem Linked.idle {os : List Occurrence} {w : World} (linked : Linked os [] w)
    (grounded : w.loader.ledger.inFlight.isEmpty = true) (b : BarrierId) :
    (w.loader.barrier b).onDone = none := by
  have empty : w.loader.ledger.goals = [] := by
    rw [Ledger.goals, List.isEmpty_iff.mp grounded]
    rfl
  -- The load that waits for this one was begun later, so going on like this leaves the table.
  induction room : w.loader.barriers.size - b.index using Nat.strongRecOn generalizing b with
  | ind room ih =>
    cases waits : (w.loader.barrier b).onDone with
    | none => rfl
    | some onDone =>
      have remaining : (w.loader.barrier b).remaining ≠ 0 := by
        intro none
        rw [(linked.live b).mpr none] at waits
        cases waits
      have inside := Loader.barrier_inside remaining
      have member : .barrier b ∈ w.loader.goals := by
        have balance := linked.balance b
        rw [held, empty] at balance
        simp only [List.flatMap_nil, List.count_nil, Nat.zero_add] at balance
        exact List.count_pos_iff.mp (by omega)
      obtain ⟨inner, next, waiting, goal⟩ := Loader.mem_goals.mp member
      have later := linked.nested inner next b waiting goal
      rw [ih (w.loader.barriers.size - inner.index) (by omega) inner rfl] at waiting
      cases waiting

/-- No callback is called more often than it was passed on. -/
theorem Linked.called_subperm {os : List Occurrence} {frames : List Frame} {w : World}
    (linked : Linked os frames w) : (calledBack os).Subperm (passedOn os) := by
  rw [List.subperm_ext_iff]
  intro n _
  have balance := linked.callbacks n
  omega

/-- When nothing is left to do and no retrieval is under way, every callback has been called. -/
theorem Linked.called_perm {os : List Occurrence} {w : World} (linked : Linked os [] w)
    (grounded : w.loader.ledger.inFlight.isEmpty = true) : (calledBack os).Perm (passedOn os) := by
  rw [List.perm_iff_count]
  intro n
  have balance := linked.callbacks n
  have none : Goal.callback n ∉ w.loader.goals := by
    intro member
    obtain ⟨b, onDone, waiting, -⟩ := Loader.mem_goals.mp member
    rw [linked.idle grounded b] at waiting
    cases waiting
  have empty : w.loader.ledger.goals = [] := by
    rw [Ledger.goals, List.isEmpty_iff.mp grounded]
    rfl
  rw [held, empty, List.count_eq_zero.mpr none] at balance
  exact balance

/-- Where a single callback was passed on and a frame leads to it, no load is left waiting. -/
theorem Linked.alone {os : List Occurrence} {frames : List Frame} {w : World}
    (linked : Linked os frames w) {first n : Nat} (single : passedOn os = [first])
    (leads : .callback n ∈ frames.flatMap Frame.goals) (b : BarrierId) :
    (w.loader.barrier b).onDone = none := by
  have once (m : Nat) : (passedOn os).count m = [first].count m := by rw [single]
  have here : 0 < (frames.flatMap Frame.goals).count (.callback n) := List.count_pos_iff.mpr leads
  -- What a load goes on to was begun earlier, or it is the callback, which would be held twice.
  induction index : b.index using Nat.strongRecOn generalizing b with
  | ind index ih =>
    cases waits : (w.loader.barrier b).onDone with
    | none => rfl
    | some next =>
      have held : 0 < w.loader.goals.count next.goal :=
        List.count_pos_iff.mpr (Loader.mem_goals.mpr ⟨b, next, waits, rfl⟩)
      cases goal : next.goal with
      | callback m =>
        rw [goal] at held
        have mine := linked.callbacks m
        have other := linked.callbacks n
        rw [once, List.count_singleton, ModuleLoader.held] at mine other
        split at mine <;> split at other
        · have same : m = n := by simp_all
          subst same
          omega
        all_goals omega
      | barrier outer =>
        rw [goal] at held
        have balance := linked.balance outer
        have ended := ih outer.index (index ▸ linked.nested b next outer waits goal) outer rfl
        rw [(linked.live outer).mp ended, ModuleLoader.held] at balance
        omega

/-- No callback is called that was not passed on, and none is called twice. As soon as nothing is
left to do and no retrieval is under way, each has been called. -/
theorem callbacks_called_once {host : Action → Prop} {setup : Setup} {past : List Machine} {m : Machine}
    (run : Run host (.fresh setup) past m) :
    (passedOn (occurrences past)).Nodup ∧
    (calledBack (occurrences past)).Subperm (passedOn (occurrences past)) ∧
    (m.stack = [] → m.world.loader.ledger.inFlight.isEmpty = true →
      (calledBack (occurrences past)).Perm (passedOn (occurrences past))) := by
  have linked := linked_always run
  refine ⟨linked.distinct, linked.called_subperm, ?_⟩
  intro rest grounded
  rw [rest] at linked
  exact linked.called_perm grounded

theorem callbacks_called_once_lone :
    ∃ past m, Run (fun _ => True) (.fresh (.lone .queued)) past m ∧ m.stack = [] ∧
      m.world.loader.ledger.inFlight.isEmpty = true ∧ passedOn (occurrences past) = [1, 0] ∧
      (calledBack (occurrences past)).Perm [1, 0] := by
  have fresh : Run (fun _ => True) (.fresh (.lone .queued)) [] (.fresh (.lone .queued)) := .start
  have run := fresh.played 40
    [.useModules ["a"] "first" [], .useModules ["a"] "second" [], .completeNext]
    (fun _ _ => trivial) (by decide +kernel)
  obtain ⟨-, -, called⟩ := callbacks_called_once run
  refine ⟨_, _, run, rfl, by decide +kernel, by decide +kernel, ?_⟩
  exact (called rfl (by decide +kernel)).trans (List.Perm.of_eq (by decide +kernel))

end ModuleLoader
