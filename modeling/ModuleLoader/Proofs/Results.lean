import ModuleLoader.Proofs.Padding

/-! What a request answers with, position by position, and that identifiers without a meaning make no difference
to anything but their own positions. -/
namespace ModuleLoader

/-- Nothing can be compiled for a locator: nothing is registered there, or what is has neither been saved nor any
patches that wait for it. -/
def Loader.Lacks (l : Loader) (k : Locator) : Prop :=
  ∀ r, l.entry? k = some r →
    l.status r < .saved ∧ ∀ key ∈ (l.record r).patchKeys, l.patches.contains key = false

/-- What position `i` of a request is answered with whose identifier means `k`. When its turn came there was nothing
to be compiled for `k`, or else the module there was compiled, and what it exported then is the answer. -/
def AnsweredInTurn (past : List Machine) (callback : Callback) (locators : List (Option Locator))
    (interfaces : List (Option Value)) (i : Nat) (k : Locator) (answer : Option Value) : Prop :=
  ∃ turn ∈ past, ∃ below,
    turn.stack = .gather (locators.drop i) (interfaces.take i) (.host callback) :: below ∧
    (answer = none ↔ turn.world.loader.Lacks k) ∧
    ∀ value, answer = some value → ∃ r later back earlier, turn.world.loader.entry? k = some r ∧
      past = later ++ back :: earlier ∧
      Returned earlier turn (.collect (locators.drop (i + 1)) (interfaces.take i) (.host callback) :: below) back ∧
      (back.world.loader.record r).exports = some value ∧
      (back.world.loader.status r = .compiling ∨ back.world.loader.status r = .compiled)

theorem Status.under_way {s : Status} (late : .compiling ≤ s) : s = .compiling ∨ s = .compiled := by
  revert late
  cases s <;> decide

theorem Loader.canCompile_eq_false {l : Loader} {r : RecordId} :
    l.canCompile r = false ↔
      l.status r < .saved ∧ ∀ key ∈ (l.record r).patchKeys, l.patches.contains key = false := by
  rw [canCompile, Bool.or_eq_false_iff, hasPatches, List.any_eq_false, decide_eq_false_iff_not, Status.not_le]
  simp only [Bool.not_eq_true]

theorem Loader.lacks_iff {l : Loader} {k : Locator} {r : RecordId} (held : l.entry? k = some r) :
    l.Lacks k ↔ l.canCompile r = false := by
  rw [canCompile_eq_false]
  constructor
  · exact fun lacks => lacks r held
  · rintro lacks x also
    cases held.symm.trans also
    exact lacks

section

variable {host : Action → Prop} {setup : Setup} {past : List Machine} {m : Machine}

/-- A position whose turn has come is answered by the module that is registered there. -/
theorem Position.answered (run : Run host (.fresh setup) past m) {callback : Callback}
    {locators : List (Option Locator)} {interfaces : List (Option Value)} {i : Nat} {k : Locator} {v : Option Value}
    (here : locators[i]? = some (some k))
    (position : Position past (.host callback) (interfaces.take i) (locators.drop (i + 1)) (some k) v) :
    AnsweredInTurn past callback locators interfaces i k v := by
  have drop : locators.drop i = some k :: locators.drop (i + 1) := by
    obtain ⟨inside, here⟩ := List.getElem?_eq_some_iff.mp here
    rw [List.drop_eq_getElem_cons inside, here]
  cases position with
  | @absent turn _ below passed stack absent =>
    refine ⟨turn, passed, below, drop ▸ stack, iff_of_true rfl fun r held => ?_, fun value some => ?_⟩
    · rw [absent] at held
      cases held
    · cases some
  | @told turn back _ r below later earlier split stack held returned =>
    have asks : turn.Asks r (.collect (locators.drop (i + 1)) (interfaces.take i) (.host callback) :: below) := by
      obtain ⟨w, frames⟩ := turn
      cases stack
      exact .position held
    have origin := run.up_to split
    have tells := asks.told origin returned
    have passed : turn ∈ past := split ▸ List.mem_append_right _ (List.mem_cons_of_mem _ returned.passed)
    refine ⟨turn, passed, below, drop ▸ stack, ?_,
      fun value some => ⟨r, later, back, earlier, held, split, returned, ?_⟩⟩
    · rw [Loader.lacks_iff held]
      constructor
      · intro none
        refine Bool.eq_false_iff.mpr fun can => ?_
        rw [Machine.Tells, if_pos can] at tells
        exact (staged_always origin r).exported tells.1 (tells.2.symm.trans none)
      · intro cannot
        rw [Machine.Tells, if_neg (Bool.eq_false_iff.mp cannot)] at tells
        exact tells
    · by_cases can : turn.world.loader.canCompile r = true
      · rw [Machine.Tells, if_pos can] at tells
        exact ⟨tells.2.symm.trans some, Status.under_way tells.1⟩
      · rw [Machine.Tells, if_neg can] at tells
        cases tells.symm.trans some

/-- The callback of a request is called with an interface for each identifier. -/
theorem Run.answers (run : Run host (.fresh setup) past m) {call : Machine} {locators : List (Option Locator)}
    (passed : call ∈ past) (requests : call.requests? = some locators)
    (called : m.occurrence = .called call.world.issued) :
    ∃ callback interfaces below, m.stack = .deliver (.host callback) interfaces :: below ∧
      callback.number = call.world.issued ∧ interfaces.length = locators.length ∧
      ∀ i k v, locators[i]? = some k → interfaces[i]? = some v →
        (k = none → v = none) ∧ ∀ locator, k = some locator →
          AnsweredInTurn past callback locators interfaces i locator v := by
  obtain ⟨callback, interfaces, below, stack, number, count, filled⟩ := run.delivers passed requests called
  refine ⟨callback, interfaces, below, stack, number, count, fun i k v there here => ?_⟩
  obtain ⟨own, same, position⟩ := filled i v here
  cases there.symm.trans same
  refine ⟨?_, ?_⟩
  · rintro rfl
    cases position
    rfl
  · rintro locator rfl
    exact position.answered run there

/-- All that two sessions have in common whose requests with the given number differ by identifiers without a
meaning. Registry, records, retrievals, reports, values and the log of all that has been run are the same, and when the
callback is called in the one it is called in the other, with nothing in the additional positions. -/
structure Machine.Twins (n : Nat) (marks : List Bool) (m m' : Machine) : Prop where
  world : m'.world = m.world.awaiting m'.world.loader.barriers
  idle : m'.stack = [] ↔ m.stack = []
  called : m'.occurrence = .called n ↔ m.occurrence = .called n
  results : ∀ callback interfaces below, callback.number = n →
    m.stack = .deliver (.host callback) interfaces :: below → ∃ interfaces' below',
      m'.stack = .deliver (.host callback) interfaces' :: below' ∧ Inserted (· = none) marks interfaces interfaces'

theorem Machine.Abreast.twins {resolve : String → Option Locator → Option Locator} {n : Nat} {marks : List Bool}
    {m m' : Machine} (abreast : m.Abreast resolve n marks m') : m.Twins n marks m' := by
  obtain ⟨t, world, -⟩ := abreast.world
  refine ⟨?_, ?_, abreast.calls, fun callback interfaces below number stack => ?_⟩
  · rw [world]
    rfl
  · have same := abreast.stack.length_eq
    rw [← List.length_eq_zero_iff, ← List.length_eq_zero_iff, same]
  · have together := abreast.stack
    rw [stack] at together
    obtain ⟨frame', below', head, -, stack'⟩ := List.forall₂_cons_left_iff.mp together
    cases head with
    | plain plain => cases plain
    | deliver given dealt =>
      cases given with
      | host asked other => exact ⟨_, below', stack', asked number ▸ dealt⟩

/-- A request answers with an interface for each of its identifiers, which is that of the module that the identifier
stands for when its turn comes. With identifiers without a meaning in between, everything happens in the same way until
the callback is called, and the callback is given nothing in their positions. -/
theorem positional_results {w : World} {site : Site} {action : Action} {later : Script} {below : List Frame}
    {referrer : Option Locator} {ids : List String}
    (run : Run host (.fresh setup) past ⟨w, .script site (action :: later) :: below⟩)
    (requests : w.requests? site action = some (referrer, ids)) :
    (∀ since m, Run host (Machine.run 1 ⟨w, .script site (action :: later) :: below⟩) since m →
      m.occurrence = .called w.issued → ∃ callback interfaces rest,
        m.stack = .deliver (.host callback) interfaces :: rest ∧ callback.number = w.issued ∧
        interfaces.length = ids.length ∧ ∀ i id answer, ids[i]? = some id → interfaces[i]? = some answer →
          (w.loader.resolve id referrer = none → answer = none) ∧
          ∀ k, w.loader.resolve id referrer = some k →
            AnsweredInTurn (since ++ ⟨w, .script site (action :: later) :: below⟩ :: past) callback
              (ids.map (w.loader.resolve · referrer)) interfaces i k answer) ∧
    ∀ marks ids', Inserted (w.loader.resolve · referrer = none) marks ids ids' →
      (∀ since m, Run host (Machine.run 1 ⟨w, .script site (action :: later) :: below⟩) since m →
        (∀ moment ∈ since, moment.occurrence ≠ .called w.issued) → ∃ since' m',
          Run host (Machine.run 1 ⟨w, .script site (action.asking ids' :: later) :: below⟩) since' m' ∧
          acted since' = acted since ∧ m.Twins w.issued marks m') ∧
      ∀ since' m', Run host (Machine.run 1 ⟨w, .script site (action.asking ids' :: later) :: below⟩) since' m' →
        (∀ moment ∈ since', moment.occurrence ≠ .called w.issued) → ∃ since m,
          Run host (Machine.run 1 ⟨w, .script site (action :: later) :: below⟩) since m ∧
          acted since' = acted since ∧ m.Twins w.issued marks m' := by
  have made := run.work (Machine.step?_of_work (m := ⟨w, .script site (action :: later) :: below⟩) rfl)
  refine ⟨fun since m after called => ?_, fun marks ids' inserted => ?_⟩
  · have requested : Machine.requests? ⟨w, .script site (action :: later) :: below⟩ =
        some (ids.map (w.loader.resolve · referrer)) := by
      change (w.requests? site action).map _ = _
      rw [requests]
      rfl
    obtain ⟨callback, interfaces, rest, stack, number, count, answers⟩ :=
      (made.trans after).answers (List.mem_append_right _ (List.mem_cons_self ..)) requested called
    refine ⟨callback, interfaces, rest, stack, number, count.trans (List.length_map _), ?_⟩
    intro i id answer there here
    have meant : (ids.map (w.loader.resolve · referrer))[i]? = some (w.loader.resolve id referrer) := by
      rw [List.getElem?_map, there]
      rfl
    exact answers i _ answer meant here
  · have abreast := run.sets_out requests inserted
    refine ⟨fun since m after uncalled => ?_, fun since' m' after uncalled => ?_⟩
    · obtain ⟨since', m', after', same, -, abreast⟩ := Run.with_padding made abreast after uncalled
      exact ⟨since', m', after', same, abreast.twins⟩
    · obtain ⟨since, m, before, same, -, abreast⟩ := Run.without_padding made abreast after uncalled
      exact ⟨since, m, before, same, abreast.twins⟩

/-- A request for the one file of a session, and one that asks for two more modules that there cannot be. -/
theorem positional_results_lone :
    ∃ since since' m m', Run (fun _ => True) (Machine.run 1 (.asked (.lone .immediate) ["a"] "" [])) since m ∧
      Run (fun _ => True) (Machine.run 1 (.asked (.lone .immediate) ["!", "a", "!"] "" [])) since' m' ∧
      m.occurrence = .called 0 ∧ m.Twins 0 [true, false, true] m' ∧
      ∃ callback interfaces below, m.stack = .deliver (.host callback) interfaces :: below ∧
        interfaces.length = 1 := by
  have fresh : Run (fun _ => True) (.fresh (.lone .immediate)) [] (.fresh (.lone .immediate)) := .start
  have asked := fresh.act (.useModules ["a"] "" []) trivial
  obtain ⟨answers, padding⟩ := positional_results asked rfl
  have since : Run (fun _ => True) (Machine.run 1 (.asked (.lone .immediate) ["a"] "" [])) _ _ :=
    Run.start.continued 17
  have called : (Machine.run 17 (Machine.run 1 (.asked (.lone .immediate) ["a"] "" []))).occurrence = .called 0 := by
    decide +kernel
  have nowhere : (World.start (.lone .immediate)).loader.resolve "!" none = none := by decide +kernel
  obtain ⟨since', m', after, -, twins⟩ :=
    (padding _ _ (.put nowhere (.kept "a" (.put nowhere .nil)))).1 _ _ since (by decide +kernel)
  obtain ⟨callback, interfaces, below, stack, -, count, -⟩ := answers _ _ since called
  exact ⟨_, since', _, m', since, after, called, twins, callback, interfaces, below, stack, count⟩

end

end ModuleLoader
