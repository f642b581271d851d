import ModuleLoader.Proofs.Effects.Founded

/-! The life of a module's record. `Record.Later` says what a record may become, `Record.Staged` what it
has at each stage; both are kept by every kind of turn, so that `record_lifecycle` holds for registered
records and for those that nothing but a handle of the host is left of. -/
namespace ModuleLoader

open Relation (ReflTransGen)

/-- What a record may become: it never falls back, and what has been saved stays. -/
structure Record.Later (before r : Record) : Prop where
  rises : before.status ≤ r.status
  dependencies : .saved ≤ before.status → r.dependencies = before.dependencies
  factory : .saved ≤ before.status → r.factory = before.factory
  declaredId : .saved ≤ before.status → r.declaredId = before.declaredId

/-- What a record has at its stage. A module without a factory is compiled for the sake of its patches. -/
structure Record.Staged (r : Record) : Prop where
  defined : r.status = .saved ∨ r.status = .ready → r.factory ≠ none
  exported : .compiling ≤ r.status → r.exports ≠ none
  bare : r.factory = none → r.dependencies = [] ∧ r.declaredId = none

namespace Record

variable {r r' : Record}

theorem Later.refl (r : Record) : Later r r := ⟨Status.le_refl _, fun _ => rfl, fun _ => rfl, fun _ => rfl⟩

theorem Later.trans {a b c : Record} (ab : Later a b) (bc : Later b c) : Later a c := by
  have still (saved : .saved ≤ a.status) : .saved ≤ b.status := Status.le_trans saved ab.rises
  refine ⟨Status.le_trans ab.rises bc.rises, fun saved => ?_, fun saved => ?_, fun saved => ?_⟩
  · exact (bc.dependencies (still saved)).trans (ab.dependencies saved)
  · exact (bc.factory (still saved)).trans (ab.factory saved)
  · exact (bc.declaredId (still saved)).trans (ab.declaredId saved)

/-- A change that leaves the definition alone. -/
theorem Later.of_same (rises : r.status ≤ r'.status) (dependencies : r'.dependencies = r.dependencies)
    (factory : r'.factory = r.factory) (declaredId : r'.declaredId = r.declaredId) : Later r r' :=
  ⟨rises, fun _ => dependencies, fun _ => factory, fun _ => declaredId⟩

theorem Moves.later (change : Moves r r') : Later r r' := by
  have rises := change.rises
  cases change with
  | loads change =>
    cases change with
    | made locator early => exact .of_same rises rfl rfl rfl
    | fetched | readied | seconded => exact .of_same rises rfl rfl rfl
    | saved definition dependencies below =>
      have unsaved (saved : .saved ≤ r.status) : False := Status.not_le.mpr below saved
      exact ⟨rises, fun saved => (unsaved saved).elim, fun saved => (unsaved saved).elim,
        fun saved => (unsaved saved).elim⟩
  | initiated | exported => exact .of_same rises rfl rfl rfl

/-- Only what has not been made yet gets a locator. -/
theorem Moves.locator (change : Moves r r') (known : r.status ≠ .unknown) : r'.locator = r.locator := by
  cases change with
  | loads change =>
    cases change with
    | made => exact absurd rfl known
    | _ => rfl
  | initiated | exported => rfl

/-- Before a record is compiled nothing has to be exported. -/
theorem Staged.of_early {s : Status} (status : r.status = s) (early : s < .compiling)
    (defined : s = .saved ∨ s = .ready → r.factory ≠ none)
    (bare : r.factory = none → r.dependencies = [] ∧ r.declaredId = none) : Staged r := by
  subst status
  exact ⟨defined, fun compiling => absurd compiling (Status.not_le.mpr early), bare⟩

theorem Moves.staged (change : Moves r r') (staged : Staged r) : Staged r' := by
  obtain ⟨defined, exported, bare⟩ := staged
  cases change with
  | loads change =>
    cases change with
    | @made locator status early =>
      refine .of_early (s := status) rfl (Nat.lt_of_le_of_lt early (by decide)) ?_ fun _ => ⟨rfl, rfl⟩
      rintro (rfl | rfl) <;> exact absurd early (by decide)
    | fetched => exact .of_early (s := .fetched) rfl (by decide) (by simp) bare
    | saved =>
      exact .of_early (s := .saved) rfl (by decide) (fun _ => Option.some_ne_none _)
        fun none => by cases none
    | readied saved => exact .of_early (s := .ready) rfl (by decide) (fun _ => defined (.inl saved)) bare
    | seconded => exact ⟨defined, exported, bare⟩
  | initiated => exact ⟨defined, exported, bare⟩
  | exported value => exact ⟨defined, fun _ => Option.some_ne_none _, bare⟩

theorem beginCompile_later (below : r.status < .compiling) (interface : Value) :
    Later r (r.beginCompile interface) := .of_same (Nat.le_of_lt below) rfl rfl rfl

theorem beginCompile_staged (staged : Staged r) (interface : Value) : Staged (r.beginCompile interface) :=
  ⟨fun saved => by simp [beginCompile] at saved, fun _ => Option.some_ne_none _, staged.bare⟩

end Record

theorem Loader.Begins.later {l l' : Loader} {r : RecordId} (begins : Begins l r l')
    (known : l.status r ≠ .unknown) (x : RecordId) : (l.record x).Later (l'.record x) := by
  by_cases same : x = r
  · subst same
    obtain ⟨interface, own⟩ := begins.own known
    exact own ▸ Record.beginCompile_later begins.below interface
  · exact begins.others x same ▸ .refl _

theorem Loader.Begins.staged {l l' : Loader} {r : RecordId} (begins : Begins l r l')
    (known : l.status r ≠ .unknown) (staged : ∀ x, (l.record x).Staged) (x : RecordId) :
    (l'.record x).Staged := by
  by_cases same : x = r
  · subst same
    obtain ⟨interface, own⟩ := begins.own known
    exact own ▸ Record.beginCompile_staged (staged x) interface
  · exact begins.others x same ▸ staged x

namespace Turn

variable {w w' : World} {frame : Frame} {frames : List Frame}

/-- No step takes a record back or changes what has been saved. -/
theorem later (turn : Turn w frame w' frames) (bears : w.loader.Bears frame.relies) (r : RecordId) :
    (w.loader.record r).Later (w'.loader.record r) := by
  cases turn with
  | aside outside moves =>
    have steps := moves.records r
    generalize w'.loader.record r = after at *
    induction steps with
    | refl => exact .refl _
    | tail _ change ih => exact ih.trans change.later
  | running x body source begins => exact begins.later (Loader.Bears.known bears) r
  | exporting x begins => exact begins.later (Loader.Bears.known bears) r
  | entered x body loader => exact loader ▸ .refl _
  | left loader => exact loader ▸ .refl _
  | finished x loader =>
    rw [loader, Loader.record_setStatus]
    split
    · exact .of_same (Status.le_compiled _) rfl rfl rfl
    · exact .refl _

/-- A record that has been made keeps its locator. -/
theorem locator (turn : Turn w frame w' frames) (bears : w.loader.Bears frame.relies) {r : RecordId}
    (known : w.loader.status r ≠ .unknown) :
    (w'.loader.record r).locator = (w.loader.record r).locator := by
  have begun {x : RecordId} (requested : w.loader.Bears [(x, .fetching)])
      (begins : Loader.Begins w.loader x w'.loader) :
      (w'.loader.record r).locator = (w.loader.record r).locator := by
    by_cases same : r = x
    · subst same
      obtain ⟨interface, own⟩ := begins.own known
      rw [own]
      rfl
    · rw [begins.others r same]
  cases turn with
  | aside outside moves =>
    have steps := moves.records r
    clear begun
    generalize w'.loader.record r = after at *
    suffices both : after.locator = (w.loader.record r).locator ∧ after.status ≠ .unknown from both.1
    induction steps with
    | refl => exact ⟨rfl, known⟩
    | tail _ change ih =>
      refine ⟨(change.locator ih.2).trans ih.1, Status.ne_unknown_of_le ih.2 change.rises⟩
  | running x body source begins => exact begun bears begins
  | exporting x begins => exact begun bears begins
  | entered x body loader => rw [loader]
  | left loader => rw [loader]; rfl
  | finished x loader =>
    rw [loader, Loader.record_setStatus]
    split <;> rfl

/-- Every step leaves records with all that belongs to their stage. -/
theorem staged (turn : Turn w frame w' frames) (bears : w.loader.Bears frame.relies)
    (staged : ∀ r, (w.loader.record r).Staged) (r : RecordId) : (w'.loader.record r).Staged := by
  cases turn with
  | aside outside moves =>
    have steps := moves.records r
    generalize w'.loader.record r = after at *
    induction steps with
    | refl => exact staged r
    | tail _ change ih => exact change.staged ih
  | running x body source begins => exact begins.staged (Loader.Bears.known bears) staged r
  | exporting x begins => exact begins.staged (Loader.Bears.known bears) staged r
  | entered x body loader => exact loader ▸ staged r
  | left loader => exact loader ▸ staged r
  | finished x loader =>
    have compiling : .compiling ≤ w.loader.status x := bears (x, .compiling) (List.mem_singleton_self _)
    rw [loader, Loader.record_setStatus]
    split
    · rename_i here
      obtain ⟨rfl, -⟩ := here
      exact ⟨fun saved => by simp at saved, fun _ => (staged x).exported compiling, (staged x).bare⟩
    · exact staged r

end Turn

section

variable {host : Action → Prop} {setup : Setup} {past : List Machine} {m : Machine}

theorem staged_always (run : Run host (.fresh setup) past m) (r : RecordId) :
    (m.world.loader.record r).Staged := by
  refine run.invariant (P := fun _ m => ∀ r, (m.world.loader.record r).Staged) ?_ ?_ ?_ r
  · intro r
    rw [Machine.fresh, World.start_bare]
    exact .of_early (s := .unknown) rfl (by decide) (by simp) fun _ => ⟨rfl, rfl⟩
  · intro past w frame rest run staged
    have bears := (founded_always run).stack frame (List.mem_cons_self ..)
    exact (bears.turn run.sound).staged bears staged
  · intro past w action _ _ staged
    exact staged

theorem later_always (run : Run host (.fresh setup) past m) (r : RecordId) {moment : Machine}
    (passed : moment ∈ past) :
    (moment.world.loader.record r).Later (m.world.loader.record r) := by
  refine run.invariant (P := fun past m => ∀ moment ∈ past,
    (moment.world.loader.record r).Later (m.world.loader.record r)) ?_ ?_ ?_ moment passed
  · intro moment passed
    cases passed
  · intro past w frame rest run later moment passed
    have bears := (founded_always run).stack frame (List.mem_cons_self ..)
    have step := (bears.turn run.sound).later bears r
    rcases List.mem_cons.mp passed with rfl | passed
    · exact step
    · exact (later moment passed).trans step
  · intro past w action _ _ later moment passed
    rcases List.mem_cons.mp passed with rfl | passed
    · exact .refl _
    · exact later moment passed

/-- Whatever a record is held by: its status never falls, what has been saved of it stays, a saved or
ready record has a factory, one that is or was being compiled has exports, and one that was compiled
without a factory has neither dependencies nor an identifier of its own. -/
theorem record_lifecycle (run : Run host (.fresh setup) past m) (r : RecordId) :
    let record := m.world.loader.record r
    (∀ moment ∈ past,
      let before := moment.world.loader.record r
      before.status.code ≤ record.status.code ∧
        (.saved ≤ before.status → record.dependencies = before.dependencies ∧
          record.factory = before.factory ∧ record.declaredId = before.declaredId)) ∧
    (record.status = .saved ∨ record.status = .ready → record.factory ≠ none) ∧
    (record.status = .compiling ∨ record.status = .compiled → record.exports ≠ none) ∧
    (record.status = .compiled → record.factory = none →
      record.dependencies = [] ∧ record.declaredId = none) := by
  have staged := staged_always run r
  refine ⟨fun moment passed => ?_, staged.defined, fun late => staged.exported ?_, fun _ => staged.bare⟩
  · have later := later_always run r passed
    exact ⟨later.rises, fun saved => ⟨later.dependencies saved, later.factory saved, later.declaredId saved⟩⟩
  · rcases late with late | late <;> rw [late] <;> decide

end

/-- A module is patched while it is retrieved, and compiled before anything was registered for it. -/
theorem record_lifecycle_patched :
    ∃ past m, Run (fun _ => True) (.fresh (.lone .queued)) past m ∧
      (∃ moment ∈ past, moment.world.loader.status ⟨0⟩ = .fetching) ∧
      m.world.loader.status ⟨0⟩ = .compiled ∧ (m.world.loader.record ⟨0⟩).factory = none ∧
      (m.world.loader.record ⟨0⟩).exports ≠ none ∧ (m.world.loader.record ⟨0⟩).dependencies = [] := by
  have fresh : Run (fun _ => True) (.fresh (.lone .queued)) [] (.fresh (.lone .queued)) := .start
  have run := fresh.played 40
    [.useModules ["a"] "page" [], .modify "a" [.giveBack (.int 2)],
      .compile (.registered "mem:a") none, .completeNext]
    (fun _ _ => trivial) (by decide +kernel)
  obtain ⟨-, -, exported, bare⟩ := record_lifecycle run ⟨0⟩
  refine ⟨_, _, run, by decide +kernel, by decide +kernel, Option.isNone_iff_eq_none.mp ?_,
    exported (.inr (by decide +kernel)), (bare (by decide +kernel) ?_).1⟩
  · decide +kernel
  · exact Option.isNone_iff_eq_none.mp (by decide +kernel)

end ModuleLoader
