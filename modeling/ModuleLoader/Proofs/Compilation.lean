import ModuleLoader.Proofs.Lifecycle

/-! One compilation for each module. The modules that are being compiled are those whose bodies are on the
stack, in the same order; a body ends where its factory is left, right above the end of its module's
compilation. So a call that returns leaves them as it has found them, and no factory is entered twice. -/
namespace ModuleLoader

/-- The modules whose bodies are on a stack, innermost first. -/
def running : List Frame → List RecordId
  | .leaveFactory :: .finishCompile r :: rest => r :: running rest
  | _ :: rest => running rest
  | [] => []

/-- The module whose factory is entered next, if one is. -/
def Machine.entering? (m : Machine) : Option RecordId :=
  match m.stack with
  | .runFactory r _ :: _ => some r
  | _ => none

/-- The modules whose factories have been entered, latest first. -/
def entered (past : List Machine) : List RecordId := past.filterMap Machine.entering?

/-- What is left of the stack when the first action of a list has been dealt with. -/
def afterAction (site : Site) (action : Action) (rest : Script) (below : List Frame) : List Frame :=
  if World.endsScript action then below else .script site rest :: below

/-- Bodies are on the stack for just these modules, innermost first, and each has its end. -/
inductive Nested : List Frame → List RecordId → Prop where
  | nil : Nested [] []
  | frame {f : Frame} {stack : List Frame} {rs : List RecordId} (plain : f.delimits = false)
      (nested : Nested stack rs) : Nested (f :: stack) rs
  | body {r : RecordId} {stack : List Frame} {rs : List RecordId} (nested : Nested stack rs) :
      Nested (.leaveFactory :: .finishCompile r :: stack) (r :: rs)

namespace Nested

variable {stack frames : List Frame} {rs : List RecordId}

theorem append (plain : ∀ f ∈ frames, f.delimits = false) (nested : Nested stack rs) :
    Nested (frames ++ stack) rs := by
  induction frames with
  | nil => exact nested
  | cons f frames ih =>
    exact .frame (plain f (List.mem_cons_self ..))
      (ih fun f member => plain f (List.mem_cons_of_mem _ member))

theorem tail {f : Frame} (outside : f.delimits = false) (nested : Nested (f :: stack) rs) :
    Nested stack rs := by
  cases nested with
  | frame plain nested => exact nested
  | body => cases outside

theorem running_eq (nested : Nested stack rs) : running stack = rs := by
  induction nested with
  | nil => rfl
  | @frame f stack rs plain nested ih =>
    cases f with
    | leaveFactory => cases plain
    | _ => exact ih
  | body nested ih => rw [running, ih]

/-- No factory is about to be entered, and no compilation is about to end. -/
theorem head (nested : Nested stack rs) (w : World) :
    (∀ r, stack.head? ≠ some (.finishCompile r)) ∧ Machine.entering? ⟨w, stack⟩ = none := by
  cases nested with
  | nil => exact ⟨fun r => by simp, rfl⟩
  | @frame f stack rs plain nested =>
    cases f with
    | runFactory | finishCompile => cases plain
    | _ => exact ⟨fun r => by simp, rfl⟩
  | body nested => exact ⟨fun r => by simp, rfl⟩

end Nested

/-- Where the machine stands in the compilation of modules. -/
inductive Stage (l : Loader) : List Frame → Prop where
  | inside {stack : List Frame} (nested : Nested stack l.compiling) : Stage l stack
  | entering {r : RecordId} {body : Script} {stack : List Frame} (nested : Nested stack l.compiling)
      (begun : r ∈ l.compiling)
      (own : ∃ source, (l.record r).factory = some (.function body source)) :
      Stage l (.runFactory r body :: stack)
  | ending {r : RecordId} {stack : List Frame} (nested : Nested stack l.compiling)
      (outside : r ∉ l.compiling) : Stage l (.finishCompile r :: stack)

/-- Has the record a factory that has begun to run? -/
def Record.hasRun (r : Record) : Bool :=
  .compiling ≤ r.status && (r.factory.map Factory.isFunction).getD false

/-- How compilations, their records and the bodies that have been entered hang together. -/
structure SingleFlight (past : List Machine) (m : Machine) : Prop where
  stage : Stage m.world.loader m.stack
  distinct : m.world.loader.compiling.Nodup
  status : ∀ r, m.world.loader.status r = .compiling ↔
    r ∈ m.world.loader.compiling ∨ m.stack.head? = some (.finishCompile r)
  entries : ∀ r, (entered past).count r + m.entering?.toList.count r =
    (m.world.loader.record r).hasRun.toNat

theorem Stage.running_eq {l : Loader} {stack : List Frame} (stage : Stage l stack) :
    running stack = l.compiling := by
  cases stage with
  | inside nested => exact nested.running_eq
  | entering nested => exact nested.running_eq
  | ending nested => exact nested.running_eq

theorem Stage.of_plain {l : Loader} {f : Frame} {stack : List Frame} (outside : f.delimits = false)
    (stage : Stage l (f :: stack)) : Nested stack l.compiling := by
  cases stage with
  | inside nested => exact nested.tail outside
  | entering => cases outside
  | ending => cases outside

theorem Record.Later.hasRun {before r : Record} (later : before.Later r)
    (late : .compiling ≤ r.status → .compiling ≤ before.status) : r.hasRun = before.hasRun := by
  by_cases compiling : .compiling ≤ before.status
  · rw [Record.hasRun, Record.hasRun, later.factory (Status.le_trans (by decide) compiling),
      decide_eq_true compiling, decide_eq_true (Status.le_trans compiling later.rises)]
  · rw [Record.hasRun, Record.hasRun, decide_eq_false compiling, decide_eq_false (mt late compiling)]
    rfl

theorem Loader.Begins.hasRun_before {l l' : Loader} {r : RecordId} (begins : Begins l r l') :
    (l.record r).hasRun = false := by
  have early : ¬ Status.compiling ≤ (l.record r).status := Status.not_le.mpr begins.below
  rw [Record.hasRun, decide_eq_false early, Bool.false_and]

theorem entered_cons (m : Machine) (past : List Machine) (r : RecordId) :
    (entered (m :: past)).count r = (entered past).count r + m.entering?.toList.count r := by
  rw [entered, List.filterMap_cons]
  cases m.entering? with
  | none => rfl
  | some x => rw [List.count_cons, Option.toList_some, List.count_singleton, entered]

namespace SingleFlight

variable {past : List Machine} {w w' : World} {frame : Frame} {frames rest : List Frame}

/-- A step after which nothing is about to be entered or to end. -/
theorem of_nested (flight : SingleFlight past ⟨w, frame :: rest⟩)
    (nested : Nested (frames ++ rest) w'.loader.compiling) (distinct : w'.loader.compiling.Nodup)
    (status : ∀ r, w'.loader.status r = .compiling ↔ r ∈ w'.loader.compiling)
    (runs : ∀ r, (w'.loader.record r).hasRun = (w.loader.record r).hasRun) :
    SingleFlight (⟨w, frame :: rest⟩ :: past) ⟨w', frames ++ rest⟩ := by
  obtain ⟨head, entering⟩ := nested.head w'
  refine ⟨.inside nested, distinct, fun r => ?_, fun r => ?_⟩
  · rw [status]
    exact ⟨.inl, fun now => now.resolve_right (head r)⟩
  · rw [entered_cons, flight.entries, entering, runs]
    rfl

/-- Unless a compilation is about to end, the modules being compiled are those with that status. -/
theorem compiling_iff (flight : SingleFlight past ⟨w, frame :: rest⟩) (other : ∀ r, frame ≠ .finishCompile r)
    (r : RecordId) : w.loader.status r = .compiling ↔ r ∈ w.loader.compiling := by
  refine (flight.status r).trans ⟨fun now => now.resolve_right ?_, .inl⟩
  intro same
  exact other r (Option.some.inj same)

theorem outside (flight : SingleFlight past ⟨w, frame :: rest⟩) {r : RecordId}
    (begins : Loader.Begins w.loader r w'.loader) : r ∉ w.loader.compiling := by
  intro member
  have compiling := (flight.status r).mpr (.inl member)
  exact absurd (compiling ▸ begins.below) (by decide)

theorem aside (flight : SingleFlight past ⟨w, frame :: rest⟩)
    (later : ∀ r, (w.loader.record r).Later (w'.loader.record r)) (outside : frame.delimits = false)
    (moves : Loader.Moves w.loader w'.loader) (plain : ∀ f ∈ frames, f.delimits = false) :
    SingleFlight (⟨w, frame :: rest⟩ :: past) ⟨w', frames ++ rest⟩ := by
  have nested := (flight.stage.of_plain outside).append plain
  refine flight.of_nested (moves.compiling ▸ nested) (moves.compiling ▸ flight.distinct) ?_ ?_
  · intro r
    rw [moves.compiling_iff, moves.compiling]
    exact flight.compiling_iff (fun r same => by subst same; cases outside) r
  · intro r
    refine (later r).hasRun fun late => ?_
    have same : (w'.loader.record r).status = (w.loader.record r).status := moves.late late
    exact same ▸ late

/-- A factory is about to be entered, which was not entered before. -/
theorem enter_body {r : RecordId} {body : Script} {source : Option String}
    (flight : SingleFlight past ⟨w, .compile r :: rest⟩) (known : w.loader.status r ≠ .unknown)
    (begins : Loader.Begins w.loader r w'.loader)
    (factory : (w.loader.record r).factory = some (.function body source))
    (compiling : w'.loader.compiling = r :: w.loader.compiling) :
    SingleFlight (⟨w, .compile r :: rest⟩ :: past)
      ⟨w', .runFactory r body :: .replaceInterface r :: .leaveFactory :: .finishCompile r :: rest⟩ := by
  obtain ⟨interface, own⟩ := begins.own known
  refine ⟨.entering ?_ ?_ ⟨source, own ▸ factory⟩, ?_, fun x => ?_, fun x => ?_⟩
  · rw [compiling]
    exact .frame rfl (.body (flight.stage.of_plain rfl))
  · rw [compiling]
    exact List.mem_cons_self ..
  · rw [compiling]
    exact List.nodup_cons.mpr ⟨flight.outside begins, flight.distinct⟩
  · rw [begins.compiling_iff known, compiling, List.mem_cons,
      flight.compiling_iff fun r same => by cases same]
    simp
  · rw [entered_cons, flight.entries]
    by_cases same : x = r
    · subst same
      rw [begins.hasRun_before, own]
      simp [Record.hasRun, Record.beginCompile, factory, Factory.isFunction, Machine.entering?,
        Status.le_iff]
    · rw [begins.others x same]
      simp [Machine.entering?, Ne.symm same]

/-- A module without a body is about to be compiled. -/
theorem export_interface {r : RecordId} (flight : SingleFlight past ⟨w, .compile r :: rest⟩)
    (known : w.loader.status r ≠ .unknown) (begins : Loader.Begins w.loader r w'.loader)
    (bodiless : ∀ body source, (w.loader.record r).factory ≠ some (.function body source))
    (compiling : w'.loader.compiling = w.loader.compiling) :
    SingleFlight (⟨w, .compile r :: rest⟩ :: past) ⟨w', .finishCompile r :: rest⟩ := by
  obtain ⟨interface, own⟩ := begins.own known
  have nested := flight.stage.of_plain rfl
  refine ⟨.ending (compiling ▸ nested) (compiling ▸ flight.outside begins), compiling ▸ flight.distinct,
    fun x => ?_, fun x => ?_⟩
  · rw [begins.compiling_iff known, compiling, flight.compiling_iff fun r same => by cases same]
    simp [or_comm, eq_comm]
  · rw [entered_cons, flight.entries]
    by_cases same : x = r
    · subst same
      rw [begins.hasRun_before, own]
      have none : (((w.loader.record x).factory.map Factory.isFunction).getD false) = false := by
        cases here : (w.loader.record x).factory with
        | none => rfl
        | some factory =>
          cases factory with
          | function body source => exact absurd here (bodiless body source)
          | value value => rfl
      simp [Record.hasRun, Record.beginCompile, none, Machine.entering?]
    · rw [begins.others x same]
      rfl

theorem run_body {r : RecordId} {body : Script} (flight : SingleFlight past ⟨w, .runFactory r body :: rest⟩)
    (loader : w'.loader = w.loader) (plain : ∀ f ∈ frames, f.delimits = false) :
    SingleFlight (⟨w, .runFactory r body :: rest⟩ :: past) ⟨w', frames ++ rest⟩ := by
  have nested : Nested rest w.loader.compiling := by
    cases flight.stage with
    | inside nested =>
      cases nested with
      | frame plain => cases plain
    | entering nested _ _ => exact nested
  refine flight.of_nested (loader ▸ nested.append plain) (loader ▸ flight.distinct) ?_ ?_
  · exact loader ▸ flight.compiling_iff fun r same => by cases same
  · exact fun r => by rw [loader]

/-- A body has ended, and the compilation that it belongs to is about to. -/
theorem leave_body (flight : SingleFlight past ⟨w, .leaveFactory :: rest⟩)
    (loader : w'.loader = w.loader.leaveFactory) :
    SingleFlight (⟨w, .leaveFactory :: rest⟩ :: past) ⟨w', rest⟩ := by
  cases flight.stage with
  | inside nested =>
    generalize compiling : w.loader.compiling = rs at nested
    cases nested with
    | frame plain => cases plain
    | @body r stack rs nested =>
      have distinct := compiling ▸ flight.distinct
      have after : w'.loader.compiling = rs := by
        rw [loader, Loader.leaveFactory, compiling, List.tail_cons]
      refine ⟨.ending (after ▸ nested) ?_, ?_, fun x => ?_, fun x => ?_⟩
      · rw [after]
        exact (List.nodup_cons.mp distinct).1
      · rw [after]
        exact (List.nodup_cons.mp distinct).2
      · have status : w'.loader.status x = w.loader.status x := by rw [loader]; rfl
        rw [status, flight.compiling_iff (fun r same => by cases same), compiling, after]
        simp [or_comm, eq_comm]
      · rw [entered_cons, flight.entries, loader]
        rfl

theorem finish {r : RecordId} (flight : SingleFlight past ⟨w, .finishCompile r :: rest⟩)
    (later : ∀ r, (w.loader.record r).Later (w'.loader.record r)) (compiling : .compiling ≤ w.loader.status r)
    (loader : w'.loader = w.loader.setStatus r .compiled) (plain : ∀ f ∈ frames, f.delimits = false) :
    SingleFlight (⟨w, .finishCompile r :: rest⟩ :: past) ⟨w', frames ++ rest⟩ := by
  obtain ⟨nested, outside⟩ : Nested rest w.loader.compiling ∧ r ∉ w.loader.compiling := by
    cases flight.stage with
    | inside nested =>
      cases nested with
      | frame plain => cases plain
    | ending nested outside => exact ⟨nested, outside⟩
  have inside := Loader.index_lt_of_known (Status.ne_unknown_of_le (a := .compiling) (by decide) compiling)
  have record (x : RecordId) : w'.loader.record x =
      if x = r then { w.loader.record x with status := .compiled } else w.loader.record x := by
    rw [loader, Loader.setStatus]
    exact Loader.record_updateRecord_inside inside _ x
  have same : w'.loader.compiling = w.loader.compiling := by rw [loader]; rfl
  refine flight.of_nested (same ▸ nested.append plain) (same ▸ flight.distinct) (fun x => ?_) fun x => ?_
  · rw [same, Loader.status, record]
    split
    · rename_i here
      subst here
      exact ⟨fun now => (by cases now), fun member => absurd member outside⟩
    · rename_i other
      refine (flight.status x).trans ⟨fun now => now.resolve_right ?_, .inl⟩
      simpa using Ne.symm other
  · refine (later x).hasRun fun late => ?_
    rw [record] at late
    split at late
    · rename_i here
      exact here ▸ compiling
    · exact late

/-- Compilations stay apart whatever the next frame does. -/
theorem step (flight : SingleFlight past ⟨w, frame :: rest⟩) (turn : Turn w frame w' frames)
    (bears : w.loader.Bears frame.relies) :
    SingleFlight (⟨w, frame :: rest⟩ :: past) ⟨w', frames ++ rest⟩ := by
  have later := turn.later bears
  cases turn with
  | aside outside moves expects plain => exact flight.aside later outside moves plain
  | running r body source begins factory compiling =>
    exact flight.enter_body (Loader.Bears.known bears) begins factory compiling
  | exporting r begins bodiless compiling =>
    exact flight.export_interface (Loader.Bears.known bears) begins bodiless compiling
  | entered r body loader plain => exact flight.run_body loader plain
  | left loader => exact flight.leave_body loader
  | finished r loader plain =>
    exact flight.finish later (bears (r, .compiling) (List.mem_singleton_self _)) loader plain

end SingleFlight

section

variable {host : Action → Prop} {setup : Setup} {past : List Machine} {m : Machine}

theorem singleFlight_always (run : Run host (.fresh setup) past m) : SingleFlight past m := by
  refine run.invariant (P := SingleFlight) ?_ ?_ ?_
  · rw [Machine.fresh, World.start_bare]
    refine ⟨.inside .nil, List.nodup_nil, fun r => ?_, fun r => rfl⟩
    exact ⟨fun now => (by cases now), fun now => (by rcases now with now | now <;> cases now)⟩
  · intro past w frame rest run flight
    have bears := (founded_always run).stack frame (List.mem_cons_self ..)
    exact flight.step (bears.turn run.sound) bears
  · intro past w action _ _ flight
    obtain ⟨stage, distinct, status, entries⟩ := flight
    cases stage with
    | inside nested =>
      refine ⟨.inside (.frame rfl nested), distinct, fun r => (status r).trans ?_, fun r => ?_⟩
      · simp
      · rw [entered_cons, entries]
        rfl

/-- A module whose factory is entered is being compiled, and the body is the one that it was registered
with. -/
theorem SingleFlight.of_entering {r : RecordId} {body : Script} (flight : SingleFlight past m)
    (top : m.stack.head? = some (.runFactory r body)) : m.world.loader.status r = .compiling ∧
      ∃ source, (m.world.loader.record r).factory = some (.function body source) := by
  obtain ⟨stage, -, status, -⟩ := flight
  generalize m.stack = stack at *
  cases stage with
  | inside nested =>
    generalize m.world.loader.compiling = rs at nested
    cases nested with
    | nil => cases top
    | frame plain =>
      cases Option.some.inj top
      cases plain
    | body => cases Option.some.inj top
  | entering nested begun own =>
    cases Option.some.inj top
    exact ⟨(status r).mpr (.inl begun), own⟩
  | ending => cases Option.some.inj top

/-- No module is compiled twice, and none at the same time as itself. The modules being compiled are those
with that status, but for the moment in which the loader ends a compilation, and no code of the host
runs then; the innermost is the one whose body runs. A call that returns has left them as they were. -/
theorem compilation_single_flight (run : Run host (.fresh setup) past m) :
    let l := m.world.loader
    l.compiling.Nodup ∧
    (∀ r, l.status r = .compiling ↔ r ∈ l.compiling ∨ m.stack.head? = some (.finishCompile r)) ∧
    l.compiling = running m.stack ∧ l.compilingModule? = (running m.stack).head? ∧
    (∀ moment ∈ past, ∀ site action rest below, moment.stack = .script site (action :: rest) :: below →
      m.stack = afterAction site action rest below → l.compiling = moment.world.loader.compiling) ∧
    (∀ r, (entered past).count r ≤ 1) ∧
    (∀ r, l.status r = .compiled → (l.record r).factory.map Factory.isFunction = some true →
      (entered past).count r = 1) ∧
    (∀ moment ∈ past, ∀ r body, moment.stack.head? = some (.runFactory r body) →
      ∃ source, (l.record r).factory = some (.function body source)) := by
  have flight := singleFlight_always run
  have bodies := flight.stage.running_eq
  refine ⟨flight.distinct, flight.status, bodies.symm, congrArg List.head? bodies.symm, ?_, ?_, ?_, ?_⟩
  · intro moment passed site action rest below called returned
    obtain ⟨_, _, rfl, earlier⟩ := run.at_moment passed
    have before := (singleFlight_always earlier).stage.running_eq
    have same : running m.stack = running moment.stack := by
      rw [called, returned, afterAction]
      split <;> rfl
    exact bodies.symm.trans (same.trans before)
  · intro r
    have entries := flight.entries r
    have once := Bool.toNat_le (m.world.loader.record r).hasRun
    omega
  · intro r compiled function
    have entries := flight.entries r
    have hasRun : (m.world.loader.record r).hasRun = true := by
      have late : .compiling ≤ (m.world.loader.record r).status := by
        rw [show (m.world.loader.record r).status = .compiled from compiled]
        decide
      rw [Record.hasRun, function, decide_eq_true late]
      rfl
    have other : m.entering? ≠ some r := by
      intro entering
      rw [Machine.entering?] at entering
      split at entering
      · rename_i body _ stack
        cases entering
        have compiling := (flight.of_entering (congrArg List.head? stack)).1
        cases compiling.symm.trans compiled
      · cases entering
    have none : m.entering?.toList.count r = 0 := by
      cases here : m.entering? with
      | none => rfl
      | some x =>
        rw [here] at other
        exact List.count_eq_zero.mpr (by simpa using Ne.symm (mt (congrArg some) other))
    rw [hasRun, none] at entries
    exact entries
  · intro moment passed r body top
    have later := later_always run r passed
    obtain ⟨_, _, rfl, earlier⟩ := run.at_moment passed
    obtain ⟨compiling, source, own⟩ := (singleFlight_always earlier).of_entering top
    refine ⟨source, (later.factory ?_).trans own⟩
    rw [show (moment.world.loader.record r).status = .compiling from compiling]
    decide

end

/-- A session over two files, of which the first asks for the other while it runs. -/
def Setup.stacked : Setup where
  config := {}
  resolver := .flat
  policy := .immediate
  sink := .silent
  files := [(⟨"mem:a"⟩, .mk none (some ["b"]) (.function [.get "b" none none, .giveBack (.int 1)] none)),
    (⟨"mem:b"⟩, .mk none (some []) (.function [.giveBack (.int 2)] none))]

theorem compilation_single_flight_stacked :
    ∃ past m, Run (fun _ => True) (.fresh .stacked) past m ∧ m.stack = [] ∧
      (∃ moment ∈ past, moment.world.loader.compiling = [⟨1⟩, ⟨0⟩]) ∧
      m.world.loader.compiling = [] ∧ (entered past).count ⟨0⟩ = 1 ∧ (entered past).count ⟨1⟩ = 1 := by
  have fresh : Run (fun _ => True) (.fresh .stacked) [] (.fresh .stacked) := .start
  have run := fresh.played 60 [.useModules ["a"] "page" []] (fun _ _ => trivial) (by decide +kernel)
  obtain ⟨-, -, bodies, -, -, -, once, -⟩ := compilation_single_flight run
  refine ⟨_, _, run, rfl, by decide +kernel, bodies, once ⟨0⟩ ?_ ?_, once ⟨1⟩ ?_ ?_⟩
  all_goals decide +kernel

end ModuleLoader
