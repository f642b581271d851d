import ModuleLoader.Proofs.Effects.Deeds
import Mathlib.Algebra.BigOperators.Group.Finset.Basic
import Mathlib.Algebra.Order.BigOperators.Group.Finset

/-! What a machine has still to ask the fetcher for. Frames name the locators that they ask for, and modules
those that they depend on; a locator is asked for once, and each retrieval is brought to an end once. -/
namespace ModuleLoader

open Loader (Grows Rests)

/-- The locators that a frame is going to ask for. -/
def Frame.mentions : Frame → List Locator
  | .load locators _ | .entries locators _ => locators
  | _ => []

/-- The locators that modules depend on. -/
def Loader.needed (l : Loader) : List Locator := l.records.cells.toList.flatMap Record.dependencies

/-- All locators that a machine can come to ask for as long as nothing is registered. -/
def Machine.reach (m : Machine) : Finset Locator :=
  (m.stack.flatMap Frame.mentions ++ m.world.loader.needed).toFinset

/-- What is still ahead of a locator. Registering it makes up for the retrieval that is started then. -/
def Loader.gap (l : Loader) (d : Locator) : Nat :=
  match l.entry? d with
  | some r => if .fetched ≤ l.status r then 0 else 1
  | none => 4

/-- Retrievals that are not over count once more before somebody is about to finish them. -/
def retrieving (tokens : List FetchToken) (w : World) : Nat := tokens.length + 2 * w.inHand.length

/-- All that is still ahead of locators and of retrievals. -/
def Machine.asking (m : Machine) : Nat :=
  ∑ d ∈ m.reach, m.world.loader.gap d + retrieving (m.stack.filterMap Frame.token?) m.world

namespace Loader

variable {l l' : Loader}

theorem mem_needed {d : Locator} : d ∈ l.needed ↔ ∃ r, d ∈ (l.record r).dependencies := by
  rw [needed, List.mem_flatMap]
  constructor
  · rintro ⟨record, member, listed⟩
    obtain ⟨i, inside, rfl⟩ := List.getElem_of_mem member
    refine ⟨⟨i⟩, ?_⟩
    rw [record, Table.get, Array.getD_eq_getD_getElem?, ← Array.getElem?_toList,
      List.getElem?_eq_getElem inside]
    exact listed
  · rintro ⟨r, listed⟩
    rw [record, Table.get, Array.getD_eq_getD_getElem?, ← Array.getElem?_toList] at listed
    cases found : l.records.cells.toList[r.index]? with
    | none =>
      rw [found] at listed
      cases listed
    | some here =>
      rw [found] at listed
      exact ⟨here, List.mem_of_getElem? found, listed⟩

/-- No module has come to depend on anything else. -/
def Leans (l l' : Loader) : Prop := ∀ r, (l'.record r).dependencies = (l.record r).dependencies

theorem Leans.needed (leans : Leans l l') {d : Locator} (needed : d ∈ l'.needed) : d ∈ l.needed := by
  obtain ⟨r, listed⟩ := mem_needed.mp needed
  exact mem_needed.mpr ⟨r, leans r ▸ listed⟩

theorem Grows.gap_le (grows : Grows l l') (d : Locator) : l'.gap d ≤ l.gap d := by
  unfold gap
  cases held : l.entry? d with
  | none =>
    dsimp only
    split
    · split <;> decide
    · exact Nat.le_refl _
  | some r =>
    obtain ⟨r', held', fetched⟩ := grows.keeps held
    simp only [held']
    by_cases before : .fetched ≤ l.status r
    · rw [if_pos before, if_pos (fetched before)]
    · rw [if_neg before]
      split <;> decide

/-- A locator that has been registered has less ahead of it. -/
theorem gap_registered {d : Locator} {r : RecordId} (absent : l.entry? d = none)
    (held : l'.entry? d = some r) : l'.gap d + 3 ≤ l.gap d := by
  simp only [gap, absent, held]
  split <;> decide

theorem gap_landed {d : Locator} {r : RecordId} (held : l.entry? d = some r)
    (below : ¬ .fetched ≤ l.status r) (landed : Landed l' d) : l'.gap d + 1 ≤ l.gap d := by
  obtain ⟨r', held', fetched⟩ := landed
  simp only [gap, held, held', if_neg below, if_pos fetched]
  exact Nat.le_refl _

end Loader

section

variable {w w' : World} {frame : Frame} {frames rest : List Frame} {o : Occurrence}

/-- The retrievals that are not over become fewer, or pass on to somebody who is about to finish them. -/
theorem Effect.retrieving_le (effect : Effect w frame o w' frames)
    (unstarted : ∀ token, o ≠ .started token) :
    retrieving (frames.filterMap Frame.token?) w' ≤ retrieving frame.token?.toList w := by
  have same (tokens : frames.filterMap Frame.token? = []) (inHand : w'.inHand = w.inHand) :
      retrieving (frames.filterMap Frame.token?) w' ≤ retrieving frame.token?.toList w := by
    rw [retrieving, retrieving, tokens, inHand]
    exact Nat.add_le_add_right (Nat.zero_le _) _
  cases effect with
  | calm tame ledger barriers orderly goals tokens =>
    have fewer := tokens.length_le
    rw [List.length_append] at fewer
    rw [retrieving, retrieving]
    omega
  | removed locator tame loader inHand goals tokens => exact same tokens inHand
  | passed wanted calm issued before after tokens => exact same tokens calm.inHand
  | called number calm before after tokens => exact same tokens calm.inHand
  | opened _ nonempty tame ledger barriers orderly inHand => exact same rfl inHand
  | joined waiter waiters tame flying ledger barriers orderly inHand goals tokens => exact same tokens inHand
  | started waiter token => exact absurd rfl (unstarted token)
  | arrived b tame ledger counted orderly inHand =>
    refine same ?_ inHand
    obtain ⟨-, -, rfl⟩ | ⟨-, -, rfl⟩ := counted
    · cases (w.loader.barrier b).onDone <;> rfl
    · rfl
  | finished token tame _ ledger barriers orderly landed inHand =>
    exact same (by simp [List.filterMap_map, Function.comp_def, Frame.token?]) inHand

/-- Whoever finishes a retrieval, or sets about it, leaves less to be done. -/
theorem Effect.retrieving_lt (effect : Effect w frame o w' frames)
    (unstarted : ∀ token, o ≠ .started token)
    (hands : frame.token? ≠ none ∨ frames.filterMap Frame.token? ≠ []) :
    retrieving (frames.filterMap Frame.token?) w' < retrieving frame.token?.toList w := by
  have no (tokens : frames.filterMap Frame.token? = []) (other : frame.token? = none) :
      retrieving (frames.filterMap Frame.token?) w' < retrieving frame.token?.toList w :=
    absurd hands (not_or.mpr ⟨not_not_intro other, not_not_intro tokens⟩)
  cases effect with
  | calm tame ledger barriers orderly goals tokens other =>
    have fewer := tokens.length_le
    have some := List.length_pos_of_ne_nil (hands.resolve_left (not_not_intro other))
    rw [List.length_append] at fewer
    rw [retrieving, retrieving]
    omega
  | removed locator tame loader inHand goals tokens other => exact no tokens other
  | passed wanted calm issued before after tokens other => exact no tokens other
  | called number calm before after tokens other => exact no tokens other
  | opened same => exact no rfl (by rw [same]; rfl)
  | joined waiter waiters tame flying ledger barriers orderly inHand goals tokens other =>
    exact no tokens other
  | started waiter token => exact absurd rfl (unstarted token)
  | arrived b tame ledger counted orderly inHand goals other =>
    refine no ?_ other
    obtain ⟨-, -, rfl⟩ | ⟨-, -, rfl⟩ := counted
    · cases (w.loader.barrier b).onDone <;> rfl
    · rfl
  | finished token tame same ledger barriers orderly landed inHand =>
    have tokens (waiters : List Waiter) : (waiters.map fun waiter =>
        Frame.settled waiter.locator waiter.barrier).filterMap Frame.token? = [] := by
      simp [List.filterMap_map, Function.comp_def, Frame.token?]
    rw [retrieving, retrieving, tokens, inHand, same]
    exact Nat.add_lt_add_right Nat.one_pos _

/-- A retrieval that is started is one more. -/
theorem Effect.retrieving_started {token : FetchToken} (effect : Effect w frame (.started token) w' frames) :
    retrieving (frames.filterMap Frame.token?) w' ≤ retrieving frame.token?.toList w + 2 := by
  cases effect with
  | started waiter token tame same grounded stale ledger barriers orderly goals tokens =>
    have more := tokens.length_le
    rw [List.length_append, List.length_cons] at more
    rw [retrieving, retrieving]
    omega

end

/-! Steps. -/

section

variable {w w' : World} {frame : Frame} {frames rest : List Frame}

/-- Frames name only what was named before, or what modules depend on. -/
def World.Names (w : World) (frame : Frame) (frames : List Frame) : Prop :=
  ∀ f ∈ frames, ∀ d ∈ f.mentions, d ∈ frame.mentions ∨ d ∈ w.loader.needed

theorem World.Names.of_bare (bare : ∀ f ∈ frames, f.mentions = []) : w.Names frame frames := by
  intro f member d named
  rw [bare f member] at named
  cases named

theorem Machine.reach_subset (names : w.Names frame frames) (leans : w.loader.Leans w'.loader) :
    Machine.reach ⟨w', frames ++ rest⟩ ⊆ Machine.reach ⟨w, frame :: rest⟩ := by
  intro d member
  rw [reach, List.mem_toFinset, List.mem_append, List.mem_flatMap] at member ⊢
  obtain ⟨f, member, named⟩ | needed := member
  · rcases List.mem_append.mp member with new | old
    · obtain before | needed := names f new d named
      · exact .inl ⟨frame, List.mem_cons_self .., before⟩
      · exact .inr needed
    · exact .inl ⟨f, List.mem_cons_of_mem _ old, named⟩
  · exact .inr (leans.needed needed)

theorem Machine.gaps_le (names : w.Names frame frames) (leans : w.loader.Leans w'.loader)
    (grows : Grows w.loader w'.loader) :
    ∑ d ∈ Machine.reach ⟨w', frames ++ rest⟩, w'.loader.gap d ≤
      ∑ d ∈ Machine.reach ⟨w, frame :: rest⟩, w.loader.gap d :=
  Nat.le_trans (Finset.sum_le_sum_of_subset (reach_subset names leans))
    (Finset.sum_le_sum fun d _ => grows.gap_le d)

/-- One locator has come on in any case. -/
theorem Machine.gaps_lt (names : w.Names frame frames) (leans : w.loader.Leans w'.loader)
    (grows : Grows w.loader w'.loader) {d : Locator} {n : Nat} (member : d ∈ frame.mentions)
    (less : w'.loader.gap d + n ≤ w.loader.gap d) :
    ∑ d ∈ Machine.reach ⟨w', frames ++ rest⟩, w'.loader.gap d + n ≤
      ∑ d ∈ Machine.reach ⟨w, frame :: rest⟩, w.loader.gap d := by
  have here : d ∈ Machine.reach ⟨w, frame :: rest⟩ := by
    rw [reach, List.mem_toFinset, List.flatMap_cons]
    exact List.mem_append_left _ (List.mem_append_left _ member)
  have fewer : ∑ d ∈ Machine.reach ⟨w', frames ++ rest⟩, w'.loader.gap d ≤
      ∑ d ∈ Machine.reach ⟨w, frame :: rest⟩, w'.loader.gap d :=
    Finset.sum_le_sum_of_subset (reach_subset names leans)
  have others := Finset.sum_le_sum (s := (Machine.reach ⟨w, frame :: rest⟩).erase d)
    fun e _ => grows.gap_le e
  rw [← Finset.add_sum_erase _ _ here] at fewer ⊢
  omega

theorem retrieving_append (tokens more : List FetchToken) (w : World) :
    retrieving (tokens ++ more) w = retrieving tokens w + more.length := by
  rw [retrieving, retrieving, List.length_append]
  omega

theorem Machine.asking_cons (w : World) (frame : Frame) (rest : List Frame) :
    Machine.asking ⟨w, frame :: rest⟩ = ∑ d ∈ Machine.reach ⟨w, frame :: rest⟩, w.loader.gap d +
      (retrieving frame.token?.toList w + (rest.filterMap Frame.token?).length) := by
  rw [asking, ← retrieving_append]
  congr 2
  cases here : frame.token? with
  | none => rw [List.filterMap_cons_none here]; rfl
  | some token => rw [List.filterMap_cons_some here]; rfl

theorem Machine.asking_append (w : World) (frames rest : List Frame) :
    Machine.asking ⟨w, frames ++ rest⟩ = ∑ d ∈ Machine.reach ⟨w, frames ++ rest⟩, w.loader.gap d +
      (retrieving (frames.filterMap Frame.token?) w + (rest.filterMap Frame.token?).length) := by
  rw [asking, ← retrieving_append, List.filterMap_append]

end

end ModuleLoader
