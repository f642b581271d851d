import ModuleLoader.Proofs.Pruning.Search

/-! Which dependencies are left out, and what is reported about them. A dependency is left out if and only if
waiting modules lead from it around a circle; the circle need not come back to the module that has the
dependency. -/
namespace ModuleLoader

/-- The sink after several reports, and the events that they give rise to. -/
def Sink.emitAll (sink : Sink) (ds : List Diagnostic) : Sink × List Event :=
  match sink with
  | .buffer held => (.buffer (held ++ ds), [])
  | .tracing => (.tracing, ds.map .reported)
  | .silent => (.silent, [])

namespace Loader

variable {l : Loader}

/-- Conditions are reported one by one, in order, and nothing else comes of it. -/
theorem reportAll_eq (l : Loader) (cs : List Condition) :
    l.reportAll cs =
      { l with
        sink := (l.sink.emitAll (cs.map Condition.diagnostic)).1
        trace := l.trace ++ (l.sink.emitAll (cs.map Condition.diagnostic)).2.toArray } := by
  induction cs generalizing l with
  | nil =>
    obtain ⟨config, resolver, sink⟩ := l
    cases sink <;> simp [reportAll, Sink.emitAll]
  | cons c cs ih =>
    have first : l.reportAll (c :: cs) = (l.report c).reportAll cs := rfl
    rw [first, ih]
    obtain ⟨config, resolver, sink⟩ := l
    cases sink <;> simp [report, emit, note, Sink.emit, Sink.emitAll]

/-! Dependencies are left out where there is a circle. -/

/-- Waiting modules lead from a dependency around a circle, which may come back to the module. -/
def Circular (l : Loader) (module d : Locator) : Prop := ∃ walk, l.Circling [module] (d :: walk)

theorem circle?_eq_none_iff (proper : l.Proper) {module d : Locator} :
    l.circle? module d = none ↔ ¬ l.Circular module d := by
  have search : l.Search [module] d (l.waitingPath? l.pathBound [module] d) := (search_iff proper).mpr rfl
  rw [circle?, Option.map_eq_none_iff]
  constructor
  · rintro none ⟨walk, circling⟩
    rw [none] at search
    exact search.not_circling proper circling
  · intro open'
    cases answer : l.waitingPath? l.pathBound [module] d with
    | none => rfl
    | some found =>
      rw [answer] at search
      obtain ⟨walk, -, circling, -⟩ := search.circling proper
      exact absurd ⟨walk, circling⟩ open'

/-- The circle that is found, from the module back to it. -/
theorem circle?_eq_some (proper : l.Proper) {module d : Locator} {chain : List Locator}
    (found : l.circle? module d = some chain) :
    ∃ walk, chain = module :: d :: walk ++ [module] ∧ l.Circling [module] (d :: walk) ∧
      (d :: walk).Nodup ∧ module ∉ walk := by
  obtain ⟨path, answer, rfl⟩ := Option.map_eq_some_iff.mp found
  obtain ⟨walk, rfl, circling, distinct, fresh⟩ :=
    ((search_iff proper).mpr answer.symm).circling proper
  refine ⟨walk, by simp, circling, distinct, fun again => ?_⟩
  exact fresh module again (List.mem_singleton_self _)

theorem pureDependencies_fst (l : Loader) (r : RecordId) :
    (l.pureDependencies r).1 =
      (l.record r).dependencies.filter fun d => (l.circle? (l.record r).locator d).isNone := by
  rw [pureDependencies, List.filterMap_map, ← List.filterMap_eq_filter]
  rfl

theorem pureDependencies_snd (l : Loader) (r : RecordId) :
    (l.pureDependencies r).2 = (l.record r).dependencies.filterMap fun d =>
      (l.circle? (l.record r).locator d).map .circularDependency := by
  simp only [pureDependencies, List.filterMap_map]
  rfl

open Classical in
/-- One report for each dependency that is left out, in order. -/
theorem reports_circles (proper : l.Proper) (module : Locator) (dependencies : List Locator) :
    List.Forall₂ (fun d report => ∃ walk,
        report = Condition.circularDependency (module :: d :: walk ++ [module]) ∧
        l.Circling [module] (d :: walk) ∧ (d :: walk).Nodup)
      (dependencies.filter (l.Circular module ·))
      (dependencies.filterMap fun d => (l.circle? module d).map Condition.circularDependency) := by
  induction dependencies with
  | nil => exact .nil
  | cons d rest ih =>
    cases answer : l.circle? module d with
    | none =>
      have clear : ¬ l.Circular module d := (circle?_eq_none_iff proper).mp answer
      rw [List.filter_cons_of_neg (by simpa using clear), List.filterMap_cons, answer]
      exact ih
    | some chain =>
      obtain ⟨walk, rfl, circling, distinct, -⟩ := circle?_eq_some proper answer
      have closes : l.Circular module d := ⟨walk, circling⟩
      rw [List.filter_cons_of_pos (by simpa using closes), List.filterMap_cons, answer]
      exact .cons ⟨walk, rfl, circling, distinct⟩ ih

open Classical in
/-- The dependencies that are left out are just those from which waiting modules lead around a circle. Each
of them is reported once, in order, with a chain that runs around such a circle, and on which no module is
passed twice. The search for circles ends, wherever it starts, and whatever the reports go to only gains
them. -/
theorem pruning_exact (proper : l.Proper) (r : RecordId) :
    let module := (l.record r).locator
    let dependencies := (l.record r).dependencies
    let reports := (l.pureDependencies r).2
    (∀ d answer, l.Search [module] d answer ↔ answer = l.waitingPath? l.pathBound [module] d) ∧
    (l.pureDependencies r).1 = dependencies.filter (¬ l.Circular module ·) ∧
    List.Forall₂ (fun d report => ∃ walk, report = .circularDependency (module :: d :: walk ++ [module]) ∧
      l.Circling [module] (d :: walk) ∧ (d :: walk).Nodup)
      (dependencies.filter (l.Circular module ·)) reports ∧
    ∀ sink, { l with sink }.pureDependencies r = l.pureDependencies r ∧
      { l with sink }.reportAll reports =
        { l with
          sink := (sink.emitAll (reports.map Condition.diagnostic)).1
          trace := l.trace ++ (sink.emitAll (reports.map Condition.diagnostic)).2.toArray } := by
  intro module dependencies reports
  refine ⟨fun d answer => search_iff proper, ?_, ?_, fun sink => ⟨?_, reportAll_eq _ _⟩⟩
  · rw [pureDependencies_fst]
    refine List.filter_congr fun d _ => ?_
    rw [Bool.eq_iff_iff, Option.isNone_iff_eq_none, decide_eq_true_iff]
    exact circle?_eq_none_iff proper
  · rw [show reports = _ from pureDependencies_snd l r]
    exact reports_circles proper module dependencies
  · have still : Still l { l with sink } := ⟨rfl, fun _ => rfl, fun _ => rfl, fun _ => rfl⟩
    exact still.pureDependencies r

/-- What the registry holds can be looked through. -/
theorem proper_of_entries (own : ∀ entry ∈ l.registry.entries, (l.record entry.2).locator = entry.1) :
    l.Proper := by
  intro d r held
  obtain ⟨before, after, split, -⟩ := OrderedMap.entries_split held
  exact own (d, r) (split ▸ List.mem_append_right _ (List.mem_cons_self ..))

/-- Two modules that depend on each other, one that depends on nothing, and one that depends on both kinds. -/
def entwined : Loader :=
  [("x", ["d"]), ("d", ["x"]), ("c", []), ("m", ["d", "c", "d"])].foldl
    (fun l (id, dependencies) => l.define ⟨some id, some dependencies, .value .null⟩) (.new {} .flat .silent)

theorem pruning_exact_entwined :
    entwined.Proper ∧ (entwined.pureDependencies ⟨3⟩).1 = [⟨"mem:c"⟩] ∧
      (entwined.pureDependencies ⟨3⟩).2.length = 2 ∧
      entwined.Circular ⟨"mem:m"⟩ ⟨"mem:d"⟩ := by
  have proper : entwined.Proper := proper_of_entries (by decide +kernel)
  obtain ⟨-, kept, -⟩ := pruning_exact proper ⟨3⟩
  have rest : (entwined.pureDependencies ⟨3⟩).1 = [⟨"mem:c"⟩] := by decide +kernel
  refine ⟨proper, rest, by decide +kernel, ?_⟩
  by_contra clear
  have module : (entwined.record ⟨3⟩).locator = ⟨"mem:m"⟩ := by decide +kernel
  have listed : (⟨"mem:d"⟩ : Locator) ∈ (entwined.record ⟨3⟩).dependencies := by decide +kernel
  have out : (⟨"mem:d"⟩ : Locator) ∉ (entwined.pureDependencies ⟨3⟩).1 := by decide +kernel
  rw [kept, List.mem_filter, module] at out
  exact out ⟨listed, by simpa using clear⟩

/-! Circles that do not come back to the module. -/

/-- A registered module names a locator among its dependencies. -/
def Declares (l : Loader) (d e : Locator) : Prop :=
  ∃ r, l.entry? d = some r ∧ e ∈ (l.record r).dependencies

/-- From a module on, each element of a chain is a declared dependency of the one before it. -/
def Declared (l : Loader) (r : RecordId) : List Locator → Prop
  | module :: first :: rest =>
    module = (l.record r).locator ∧ first ∈ (l.record r).dependencies ∧ (first :: rest).IsChain l.Declares
  | _ => False

theorem Waits.declares {d e : Locator} (waits : l.Waits d e) : l.Declares d e := by
  obtain ⟨r, held, -, member⟩ := waits
  exact ⟨r, held, member⟩

/-- A chain that is declared up to some element is declared as a whole if this one declares the last. -/
theorem declared_concat_iff {r : RecordId} {module d last e : Locator} {walk : List Locator}
    (here : (d :: walk).getLast? = some last) :
    l.Declared r (module :: d :: walk ++ [e]) ↔ l.Declared r (module :: d :: walk) ∧ l.Declares last e := by
  have chain : (d :: walk ++ [e]).IsChain l.Declares ↔
      (d :: walk).IsChain l.Declares ∧ l.Declares last e := by
    rw [List.isChain_append, here]
    simp
  rw [List.cons_append, List.cons_append, Declared, ← List.cons_append, chain, Declared]
  tauto

/-- A circle leads to what was passed before, or around. -/
theorem Circling.leads {passed walk : List Locator} {d : Locator} (circling : l.Circling passed (d :: walk)) :
    (∃ e ∈ passed, Relation.TransGen l.Waits d e) ∨
      ∃ c, Relation.ReflTransGen l.Waits d c ∧ Relation.TransGen l.Waits c c := by
  induction walk generalizing passed d with
  | nil =>
    obtain ⟨e, member, waits⟩ := circling_singleton.mp circling
    rcases List.mem_cons.mp member with rfl | earlier
    · exact .inr ⟨e, .refl, .single waits⟩
    · exact .inl ⟨e, earlier, .single waits⟩
  | cons x walk ih =>
    obtain ⟨first, rest⟩ := circling_cons_cons.mp circling
    obtain ⟨e, member, leads⟩ | ⟨c, leads, around⟩ := ih rest
    · rcases List.mem_cons.mp member with rfl | earlier
      · exact .inr ⟨e, .refl, .head first leads⟩
      · exact .inl ⟨e, earlier, .head first leads⟩
    · exact .inr ⟨c, .head first leads, around⟩

theorem Circling.mono {passed wider walk : List Locator} (circling : l.Circling passed walk)
    (wide : ∀ e ∈ passed, e ∈ wider) : l.Circling wider walk := by
  obtain ⟨steps, last, here, e, member, waits⟩ := circling
  refine ⟨steps, last, here, e, ?_, waits⟩
  exact List.mem_append.mpr ((List.mem_append.mp member).imp_left (wide e))

/-- Whatever leads to a circle is the start of one. -/
theorem Circling.extend {passed walk : List Locator} {d x : Locator} (step : l.Waits d x)
    (circling : l.Circling passed (x :: walk)) : l.Circling passed (d :: x :: walk) :=
  circling_cons_cons.mpr ⟨step, circling.mono fun _ => List.mem_cons_of_mem d⟩

theorem exists_circling_of_leads {passed : List Locator} {d e : Locator}
    (leads : Relation.TransGen l.Waits d e) (member : e ∈ passed) : ∃ walk, l.Circling passed (d :: walk) := by
  induction leads using Relation.TransGen.head_induction_on with
  | single step => exact ⟨[], circling_singleton.mpr ⟨e, List.mem_cons_of_mem _ member, step⟩⟩
  | head step _ ih =>
    obtain ⟨walk, circling⟩ := ih
    exact ⟨_, circling.extend step⟩

theorem exists_circling_of_around {passed : List Locator} {c : Locator}
    (around : Relation.TransGen l.Waits c c) : ∃ walk, l.Circling passed (c :: walk) := by
  obtain ⟨x, first, back⟩ := Relation.TransGen.head'_iff.mp around
  obtain rfl | back := Relation.reflTransGen_iff_eq_or_transGen.mp back
  · exact ⟨[], circling_singleton.mpr ⟨c, List.mem_cons_self .., first⟩⟩
  · have here : c ∈ c :: passed := List.mem_cons_self ..
    obtain ⟨walk, circling⟩ := exists_circling_of_leads back here
    exact ⟨x :: walk, circling_cons_cons.mpr ⟨first, circling⟩⟩

/-- There is a circle if and only if waiting modules lead back to the module, or around somewhere else. -/
theorem circular_iff {module d : Locator} :
    l.Circular module d ↔ Relation.TransGen l.Waits d module ∨
      ∃ c, Relation.ReflTransGen l.Waits d c ∧ Relation.TransGen l.Waits c c := by
  constructor
  · rintro ⟨walk, circling⟩
    refine circling.leads.imp_left ?_
    rintro ⟨e, member, leads⟩
    exact List.mem_singleton.mp member ▸ leads
  · rintro (back | ⟨c, leads, around⟩)
    · exact exists_circling_of_leads back (List.mem_singleton_self _)
    · induction leads using Relation.ReflTransGen.head_induction_on with
      | refl => exact exists_circling_of_around around
      | head step _ ih =>
        obtain ⟨walk, circling⟩ := ih
        exact ⟨_, circling.extend step⟩

/-- A circle whose last module does not depend on the module that it is found for goes around without it. -/
theorem Circling.avoids {module d last : Locator} {walk : List Locator}
    (circling : l.Circling [module] (d :: walk)) (fresh : module ∉ walk)
    (here : (d :: walk).getLast? = some last) (apart : ¬ l.Declares last module) :
    ∃ before first circle, d :: walk = before ++ first :: circle ∧ (first :: circle).IsChain l.Waits ∧
      l.Waits last first ∧ module ∉ first :: circle := by
  obtain ⟨steps, last', there, e, member, waits⟩ := circling
  cases here.symm.trans there
  have other : e ≠ module := fun same => apart (same ▸ waits.declares)
  rcases List.mem_append.mp member with outside | inside
  · exact absurd (List.mem_singleton.mp outside) other
  · obtain ⟨before, circle, split⟩ := List.append_of_mem inside
    refine ⟨before, e, circle, split, (split ▸ steps).right_of_append, waits, ?_⟩
    rintro (_ | ⟨_, again⟩)
    · exact other rfl
    · cases before with
      | nil =>
        cases split
        exact fresh again
      | cons _ before =>
        cases split
        exact fresh (List.mem_append_right _ (List.mem_cons_of_mem _ again))

/-- A dependency is left out if and only if waiting modules lead from it back to the module, or around a
circle. So those that are left out lead back if and only if those that lead around do. Each chain that is
reported is declared up to its last step; the last step is declared as well, or the chain ends with a circle
that the module is not on. -/
theorem left_out_leads_back_iff (proper : l.Proper) (r : RecordId) :
    let module := (l.record r).locator
    let dependencies := (l.record r).dependencies
    let back (d : Locator) : Prop := Relation.TransGen l.Waits d module
    let around (d : Locator) : Prop :=
      ∃ c, Relation.ReflTransGen l.Waits d c ∧ Relation.TransGen l.Waits c c
    (∀ d ∈ dependencies, d ∉ (l.pureDependencies r).1 ↔ back d ∨ around d) ∧
    ((∀ d ∈ dependencies, d ∉ (l.pureDependencies r).1 → d = module ∨ back d) ↔
      ∀ d ∈ dependencies, around d → d = module ∨ back d) ∧
    ∀ chain, .circularDependency chain ∈ (l.pureDependencies r).2 →
      ∃ walk last, chain = module :: walk ++ [module] ∧ walk.getLast? = some last ∧
        l.Declared r (module :: walk) ∧ (l.Declared r chain ↔ l.Declares last module) ∧
        (¬ l.Declares last module → ∃ before first circle, walk = before ++ first :: circle ∧
          (first :: circle).IsChain l.Waits ∧ l.Waits last first ∧ module ∉ first :: circle) := by
  intro module dependencies back around
  have left (d : Locator) (listed : d ∈ dependencies) :
      d ∉ (l.pureDependencies r).1 ↔ back d ∨ around d := by
    rw [← circular_iff, mem_pureDependencies, circle?_eq_none_iff proper]
    simp only [dependencies] at listed
    simp only [listed, true_and, not_not, module]
  refine ⟨left, ?_, fun chain reported => ?_⟩
  · constructor
    · exact fun claim d listed around => claim d listed ((left d listed).mpr (.inr around))
    · intro claim d listed out
      obtain leads | leads := (left d listed).mp out
      · exact .inr leads
      · exact claim d listed leads
  · rw [pureDependencies_snd] at reported
    obtain ⟨d, listed, found⟩ := List.mem_filterMap.mp reported
    obtain ⟨circle, found, same⟩ := Option.map_eq_some_iff.mp found
    cases same
    obtain ⟨walk, rfl, circling, -, fresh⟩ := circle?_eq_some proper found
    obtain ⟨last, here, -⟩ := circling.closed
    have declared : l.Declared r (module :: d :: walk) :=
      ⟨rfl, listed, circling.steps.imp fun _ _ => Waits.declares⟩
    refine ⟨d :: walk, last, rfl, here, declared, ?_, circling.avoids fresh here⟩
    exact (declared_concat_iff here).trans (and_iff_right declared)

/-- Nobody depends on the module that depends on both kinds. -/
theorem entwined_aside (d : Locator) : ¬ entwined.Declares d ⟨"mem:m"⟩ := by
  rintro ⟨r, held, member⟩
  obtain ⟨before, after, split, -⟩ := OrderedMap.entries_split held
  have none : ∀ entry ∈ entwined.registry.entries,
      (⟨"mem:m"⟩ : Locator) ∉ (entwined.record entry.2).dependencies := by decide +kernel
  exact none (d, r) (split ▸ List.mem_append_right _ (List.mem_cons_self ..)) member

/-- A dependency is left out that does not lead back, and a chain is reported whose last step nobody
declares. -/
theorem left_out_for_foreign_circle :
    (¬ ∀ (l : Loader) (r : RecordId), l.Proper → ∀ d ∈ (l.record r).dependencies,
      d ∉ (l.pureDependencies r).1 →
      d = (l.record r).locator ∨ Relation.TransGen l.Waits d (l.record r).locator) ∧
    ¬ ∀ (l : Loader) (r : RecordId), l.Proper → ∀ chain,
      .circularDependency chain ∈ (l.pureDependencies r).2 → l.Declared r chain := by
  have proper : entwined.Proper := proper_of_entries (by decide +kernel)
  have module : (entwined.record ⟨3⟩).locator = ⟨"mem:m"⟩ := by decide +kernel
  constructor
  · intro back
    obtain same | leads := back entwined ⟨3⟩ proper ⟨"mem:d"⟩ (by decide +kernel) (by decide +kernel)
    · revert same
      decide +kernel
    · rw [module] at leads
      obtain ⟨last, -, waits⟩ := Relation.TransGen.tail'_iff.mp leads
      exact entwined_aside last waits.declares
  · intro declared
    have chain := declared entwined ⟨3⟩ proper [⟨"mem:m"⟩, ⟨"mem:d"⟩, ⟨"mem:x"⟩, ⟨"mem:m"⟩] (by decide +kernel)
    obtain ⟨-, -, steps⟩ := chain
    have last : entwined.Declares ⟨"mem:x"⟩ ⟨"mem:m"⟩ :=
      (List.isChain_cons_cons.mp (List.isChain_cons_cons.mp steps).2).1
    exact entwined_aside _ last

theorem left_out_leads_back_iff_entwined :
    entwined.Proper ∧ (⟨"mem:d"⟩ : Locator) ∈ (entwined.record ⟨3⟩).dependencies ∧
      ∃ c, Relation.ReflTransGen entwined.Waits ⟨"mem:d"⟩ c ∧ Relation.TransGen entwined.Waits c c := by
  have proper : entwined.Proper := proper_of_entries (by decide +kernel)
  have listed : (⟨"mem:d"⟩ : Locator) ∈ (entwined.record ⟨3⟩).dependencies := by decide +kernel
  have module : (entwined.record ⟨3⟩).locator = ⟨"mem:m"⟩ := by decide +kernel
  refine ⟨proper, listed, ?_⟩
  obtain ⟨out, -⟩ := left_out_leads_back_iff proper ⟨3⟩
  refine ((out _ listed).mp (by decide +kernel)).resolve_left fun back => ?_
  rw [module] at back
  obtain ⟨last, -, waits⟩ := Relation.TransGen.tail'_iff.mp back
  exact entwined_aside last waits.declares

end Loader

end ModuleLoader
