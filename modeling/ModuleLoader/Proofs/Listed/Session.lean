import ModuleLoader.Proofs.Listed.Work

/-! The state of a session over a table, at every moment. -/
namespace ModuleLoader

open Loader (Sound Grows Kept Raised Tabular)

theorem Continuation.Backed.mono {l l' : Loader} (grown : Grows l l') {next : Continuation}
    (backed : next.Backed l) : next.Backed l' := by
  cases next with
  | arrive b r => exact Status.le_trans backed (grown.rises r)
  | _ => trivial

theorem Frame.Backed.mono {l l' : Loader} (grown : Grows l l') {f : Frame} (backed : f.Backed l) :
    f.Backed l' := by
  cases f with
  | finishCompile r => exact Status.le_trans backed (grown.rises r)
  | settled locator b => exact grown.landed backed
  | load _ next | resume next | preload next => exact Continuation.Backed.mono grown backed
  | _ => trivial

theorem Setup.Named.of_tail {setup : Setup} {anonymous : Option Definition} {frames : List Frame}
    (others : ∀ f ∈ frames, f.token? = none) (unnamed : anonymous = none) :
    setup.Named anonymous frames := by
  cases frames with
  | nil => exact unnamed
  | cons f rest =>
    cases f with
    | retrieved token => cases others (.retrieved token) (List.mem_cons_self ..)
    | _ => exact unnamed

theorem Frame.of_quiet (f : Frame) (isQuiet : f.isQuiet = true) : f.token? = none ∧ f.goals = [] := by
  cases f <;> first | exact ⟨rfl, rfl⟩ | cases isQuiet

theorem Frame.not_removed {w : World} {frame : Frame} (plain : frame.isPlain = true)
    (locator : Locator) : frame.occurrence w ≠ .removed locator := by
  intro removes
  obtain ⟨site, key, later, rfl⟩ := of_removed removes
  simp only [isPlain, Action.allHosted, Bool.and_eq_true] at plain
  cases plain.1.1

namespace Plain

variable {setup : Setup} {w w' : World} {frame : Frame} {rest frames : List Frame}

/-- The work of a frame leaves such a state if its own frames and loads are as they should be. -/
theorem next (plain : Plain setup (frame :: rest) w) (grown : Grows w.loader w'.loader)
    (tabular : Tabular setup w'.loader) (files : w'.fetcher.files = w.fetcher.files)
    (policy : w'.fetcher.policy = w.fetcher.policy)
    (new : ∀ f ∈ frames, f.isPlain = true ∧ f.Backed w'.loader)
    (loads : ∀ b next, (w'.loader.barrier b).onDone = some next →
      (w.loader.barrier b).onDone = some next ∨ next.isPlain = true ∧ next.Backed w'.loader)
    (named : setup.Named w'.loader.anonymous (frames ++ rest))
    (tail : ∀ f ∈ frames.tail, f.token? = none) : Plain setup (frames ++ rest) w' := by
  refine ⟨tabular, fun locator => (plain.offers locator).of_files files, policy.trans plain.policy,
    ?_, ?_, named, ?_⟩
  · intro f member
    rcases List.mem_append.mp member with first | last
    · exact new f first
    · obtain ⟨isPlain, backed⟩ := plain.frames f (List.mem_cons_of_mem _ last)
      exact ⟨isPlain, backed.mono grown⟩
  · intro b next waiting
    obtain before | now := loads b next waiting
    · obtain ⟨isPlain, backed⟩ := plain.loads b next before
      exact ⟨isPlain, backed.mono grown⟩
    · exact now
  · intro f member
    cases frames with
    | nil => exact plain.tail f (List.mem_of_mem_tail member)
    | cons g frames =>
      rcases List.mem_append.mp member with first | last
      · exact tail f first
      · exact plain.tail f last

/-- Where no retrieval is about to be finished, nothing waits for a name. -/
theorem next_unnamed (plain : Plain setup (frame :: rest) w) (grown : Grows w.loader w'.loader)
    (tabular : Tabular setup w'.loader) (files : w'.fetcher.files = w.fetcher.files)
    (policy : w'.fetcher.policy = w.fetcher.policy)
    (new : ∀ f ∈ frames, f.isPlain = true ∧ f.Backed w'.loader ∧ f.token? = none)
    (loads : ∀ b next, (w'.loader.barrier b).onDone = some next →
      (w.loader.barrier b).onDone = some next ∨ next.isPlain = true ∧ next.Backed w'.loader)
    (unnamed : w'.loader.anonymous = none) : Plain setup (frames ++ rest) w' := by
  refine plain.next grown tabular files policy (fun f member => ⟨(new f member).1, (new f member).2.1⟩)
    loads (.of_tail ?_ unnamed) fun f member => (new f (List.mem_of_mem_tail member)).2.2
  intro f member
  rcases List.mem_append.mp member with first | last
  · exact (new f first).2.2
  · exact plain.tail f last

/-- The work of a frame that has no part in loads. -/
theorem quiet_step (plain : Plain setup (frame :: rest) w) (isQuiet : frame.isQuiet = true)
    (grown : Grows w.loader w'.loader) (same : w'.loader.barriers = w.loader.barriers)
    (move : QuietMove setup w frame w' frames) : Plain setup (frames ++ rest) w' := by
  obtain ⟨other, -⟩ := frame.of_quiet isQuiet
  have unnamed := plain.unnamed other
  have loads (b : BarrierId) (next : Continuation) (waiting : (w'.loader.barrier b).onDone = some next) :
      (w.loader.barrier b).onDone = some next ∨ next.isPlain = true ∧ next.Backed w'.loader :=
    .inl (congrArg (fun t : Table Barrier => (t.get b.index).onDone) same ▸ waiting)
  have ordinary {l : Loader} {frames : List Frame} (aside : ∀ f ∈ frames, f.Aside frame l) :
      ∀ f ∈ frames, f.isPlain = true ∧ f.Backed l ∧ f.token? = none :=
    fun f member =>
      ⟨(aside f member).isPlain, (aside f member).backed, (f.of_quiet (aside f member).isQuiet).1⟩
  have named (raised : Raised w.loader w'.loader) : w'.loader.anonymous = none :=
    (congrArg Loader.anonymous raised.base :).trans unnamed
  cases move with
  | still kept fetcher aside =>
    exact plain.next_unnamed grown (plain.tabular.raised kept.raised) (by rw [fetcher]) (by rw [fetcher])
      (ordinary aside) loads (named kept.raised)
  | compiling r same saved below raised only fetcher aside =>
    exact plain.next_unnamed grown (plain.tabular.raised raised) (by rw [fetcher]) (by rw [fetcher])
      (ordinary aside) loads (named raised)
  | compiled r same raised only fetcher aside =>
    exact plain.next_unnamed grown (plain.tabular.raised raised) (by rw [fetcher]) (by rw [fetcher])
      (ordinary aside) loads (named raised)
  | asked site ids tag body later same loader fetcher hosted conclusion after =>
    refine plain.next_unnamed grown (loader ▸ plain.tabular) (by rw [fetcher]) (by rw [fetcher]) ?_ loads
      (by rw [loader, unnamed])
    intro f member
    simp only [List.mem_cons, List.not_mem_nil, or_false] at member
    rcases member with rfl | rfl | rfl
    · exact ⟨hosted, trivial, rfl⟩
    · exact ⟨rfl, trivial, rfl⟩
    · exact ⟨after, trivial, rfl⟩
  | taken token anonymous queued awaited loader queue aside =>
    refine plain.next grown ?_ (by rw [queue]) (by rw [queue]) ?_ loads ?_ ?_
    · rw [loader]
      exact { plain.tabular with }
    · intro f member
      rcases List.mem_cons.mp member with rfl | later
      · exact ⟨rfl, trivial⟩
      · exact ⟨(aside f later).isPlain, (aside f later).backed⟩
    · rw [loader]
      exact awaited
    · intro f member
      exact (ordinary aside f member).2.2

/-- What is left of an arrival goes on as it was to. -/
theorem arrived_step {b : BarrierId} {loaded : Option RecordId}
    (plain : Plain setup (frame :: rest) w) (unnamed : w.loader.anonymous = none)
    (grown : Grows w.loader w'.loader) (arrival : Arrival w b loaded w' frames)
    (loads : ∀ x next, (w'.loader.barrier x).onDone = some next →
      (w.loader.barrier x).onDone = some next) : Plain setup (frames ++ rest) w' := by
  refine plain.next_unnamed grown (plain.tabular.raised arrival.raised) (by rw [arrival.fetcher])
    (by rw [arrival.fetcher]) ?_ (fun x next waiting => .inl (loads x next waiting))
    ((congrArg Loader.anonymous arrival.raised.base :).trans unnamed)
  intro f member
  obtain ⟨next, rfl, waiting, -⟩ := arrival.resumes f member
  obtain ⟨isPlain, backed⟩ := plain.loads b next waiting
  exact ⟨isPlain, backed.mono grown, rfl⟩

theorem relayed_step (plain : Plain setup (frame :: rest) w) (relay : Relay setup w frame frames)
    (loader : w'.loader = w.loader) (fetcher : w'.fetcher = w.fetcher) :
    Plain setup (frames ++ rest) w' := by
  have unnamed : w.loader.anonymous = none := by
    apply plain.unnamed
    cases relay <;> rfl
  have isPlain := (plain.frames frame (List.mem_cons_self ..)).1
  have backed := (plain.frames frame (List.mem_cons_self ..)).2
  refine plain.next_unnamed (loader ▸ .refl _) (loader ▸ plain.tabular) (by rw [fetcher])
    (by rw [fetcher]) ?_ (fun x next waiting => .inl (loader ▸ waiting)) (by rw [loader, unnamed])
  intro f member
  cases relay with
  | emptied b => cases member
  | compiles locator locators interfaces receiver r =>
    simp only [List.mem_cons, List.not_mem_nil, or_false] at member
    rcases member with rfl | rfl
    · exact ⟨rfl, trivial, rfl⟩
    · exact ⟨isPlain, trivial, rfl⟩
  | called callback interfaces =>
    obtain rfl := List.mem_singleton.mp member
    refine ⟨?_, trivial, rfl⟩
    simp only [Frame.isPlain, Option.isNone_none, Bool.true_or, Bool.and_true]
    exact isPlain
  | preloaded next =>
    obtain rfl := List.mem_singleton.mp member
    exact ⟨isPlain, loader ▸ backed, rfl⟩
  | _ =>
    obtain rfl := List.mem_singleton.mp member
    exact ⟨isPlain, trivial, rfl⟩

/-- The work of any frame leaves the session in such a state. -/
theorem step {o : Occurrence} (plain : Plain setup (frame :: rest) w) (sound : Sound w.loader)
    (effect : Effect w frame o w' frames) (kept : ∀ locator, o ≠ .removed locator)
    (work : Work setup w frame w' frames) : Plain setup (frames ++ rest) w' := by
  obtain ⟨isPlain, backed⟩ := plain.frames frame (List.mem_cons_self ..)
  have grown := (effect.orderly kept sound).2
  have loads (x : BarrierId) (next : Continuation)
      (waits : (w'.loader.barrier x).onDone = some next) (other : ∀ wanted, frame ≠ .load wanted next) :
      (w.loader.barrier x).onDone = some next := by
    obtain before | ⟨wanted, same⟩ := effect.waiting waits
    · exact before
    · exact absurd same (other wanted)
  cases work with
  | quiet isQuiet move =>
    exact plain.quiet_step isQuiet grown (effect.barriers_of_goals (frame.of_quiet isQuiet).2) move
  | relayed relay loader fetcher => exact plain.relayed_step relay loader fetcher
  | skipped locators next =>
    refine plain.next_unnamed grown plain.tabular rfl rfl ?_ (fun x next waits => .inl waits)
      (plain.unnamed rfl)
    intro f member
    obtain rfl := List.mem_singleton.mp member
    exact ⟨isPlain, backed, rfl⟩
  | opened locators next loader fetcher =>
    have same : Kept w.loader w'.loader := .of_base (by rw [loader]; rfl) (by rw [loader]; rfl)
    refine plain.next_unnamed grown (plain.tabular.raised same.raised) (by rw [fetcher])
      (by rw [fetcher]) ?_ ?_ ((congrArg Loader.anonymous same.base :).trans (plain.unnamed rfl))
    · intro f member
      obtain rfl := List.mem_singleton.mp member
      exact ⟨rfl, trivial, rfl⟩
    · intro x waiting waits
      obtain before | ⟨wanted, same⟩ := effect.waiting waits
      · exact .inl before
      · cases same
        exact .inr ⟨isPlain, Continuation.Backed.mono grown backed⟩
  | ended locator later b landed =>
    refine plain.next_unnamed grown plain.tabular rfl rfl ?_ (fun x next waits => .inl waits)
      (plain.unnamed rfl)
    intro f member
    simp only [List.mem_cons, List.not_mem_nil, or_false] at member
    rcases member with rfl | rfl
    · exact ⟨rfl, landed, rfl⟩
    · exact ⟨rfl, trivial, rfl⟩
  | joined locator later b waiters flying loader fetcher =>
    refine plain.next_unnamed grown (loader ▸ plain.tabular.joined b flying) (by rw [fetcher])
      (by rw [fetcher]) ?_ (fun x next waits => .inl (loads x next waits fun _ => Frame.noConfusion))
      (by rw [loader]; exact plain.unnamed rfl)
    intro f member
    obtain rfl := List.mem_singleton.mp member
    exact ⟨rfl, trivial, rfl⟩
  | asked locator later b absent anonymous loader files policy requests handed =>
    have tabular := plain.tabular.requested sound absent b
    refine plain.next grown (loader ▸ { tabular with }) files policy ?_
      (fun x next waits => .inl (loads x next waits fun _ => Frame.noConfusion)) ?_ ?_
    · intro f member
      obtain ⟨rfl, -⟩ | ⟨rfl, -⟩ := handed <;>
        simp only [List.nil_append, List.singleton_append, List.mem_cons, List.not_mem_nil,
          or_false] at member
      · rw [member]
        exact ⟨rfl, trivial⟩
      · rcases member with rfl | rfl
        · exact ⟨rfl, trivial⟩
        · exact ⟨rfl, trivial⟩
    · rw [loader]
      obtain ⟨rfl, none, -⟩ | ⟨rfl, awaited, -⟩ := handed
      · exact none
      · exact awaited
    · intro f member
      obtain ⟨rfl, -⟩ | ⟨rfl, -⟩ := handed
      · cases member
      · obtain rfl := List.mem_singleton.mp member
        rfl
  | missing locator b r held fetched arrival =>
    exact plain.arrived_step (plain.unnamed rfl) grown arrival fun x next waits =>
      loads x next waits fun _ => Frame.noConfusion
  | ready locator b r held saved bare arrival =>
    exact plain.arrived_step (plain.unnamed rfl) grown arrival fun x next waits =>
      loads x next waits fun _ => Frame.noConfusion
  | arrived b r saved arrival =>
    exact plain.arrived_step (plain.unnamed rfl) grown arrival fun x next waits =>
      loads x next waits fun _ => Frame.noConfusion
  | waits locator b r held saved same fetcher =>
    refine plain.next_unnamed grown (plain.tabular.raised same.raised) (by rw [fetcher])
      (by rw [fetcher]) ?_ (fun x next waits => .inl (loads x next waits fun _ => Frame.noConfusion))
      ((congrArg Loader.anonymous same.base :).trans (plain.unnamed rfl))
    intro f member
    obtain rfl := List.mem_singleton.mp member
    exact ⟨rfl, Status.le_trans saved (same.raised.rises r), rfl⟩
  | finished token r waiters held fetching resource flying waiting landed retrieved fetcher =>
    refine plain.next_unnamed grown (plain.tabular.retrieved fetching resource held retrieved)
      (by rw [fetcher]) (by rw [fetcher]) ?_
      (fun x next waits => .inl (loads x next waits fun _ => Frame.noConfusion)) retrieved.unnamed
    intro f member
    obtain ⟨waiter, waits, rfl⟩ := List.mem_map.mp member
    refine ⟨rfl, ?_, rfl⟩
    rw [Frame.Backed, waiting waiter waits]
    exact landed

end Plain

/-! The host's steps. -/

/-- The tokens of retrievals that have been started name the locators' own resources. -/
theorem resourced_cons {setup : Setup} (listed : setup.Listed) {os : List Occurrence} {w w' : World}
    {frame : Frame} {frames : List Frame} {o : Occurrence} (effect : Effect w frame o w' frames)
    (resolver : w.loader.resolver = setup.resolver)
    (resourced : ∀ t ∈ underWay os, t.resource = .ofLocator t.locator) :
    ∀ t ∈ underWay (o :: os), t.resource = .ofLocator t.locator := by
  cases effect with
  | started waiter token tame same =>
    intro t member
    rcases List.mem_cons.mp member with rfl | earlier
    · rw [same, resolver]
      exact listed.identity _
    · exact resourced t earlier
  | finished token => exact fun t member => resourced t (List.mem_of_mem_erase member)
  | _ => exact resourced

/-- What is known of a session over a table at every moment. -/
structure Session (setup : Setup) (past : List Machine) (m : Machine) : Prop where
  tracked : Tracked (occurrences past) m.tokens m.world.loader
  linked : Linked (occurrences past) m.stack m.world
  resourced : ∀ t ∈ underWay (occurrences past), t.resource = .ofLocator t.locator
  plain : Plain setup m.stack m.world

theorem Plain.fresh {setup : Setup} (listed : setup.Listed) : Plain setup [] (World.start setup) := by
  obtain ⟨loader, -, -, policy, -⟩ := World.start_spec setup
  have record (r : RecordId) : (Loader.new setup.config setup.resolver setup.sink).record r = default := rfl
  have status (r : RecordId) : (Loader.new setup.config setup.resolver setup.sink).status r = .unknown := rfl
  refine ⟨?_, World.start_offers listed, policy, ?_, ?_, ?_, ?_⟩
  · rw [loader]
    refine
      { config := rfl, resolver := rfl, own := ?_, entered := ?_, alone := fun _ => rfl, bare := ?_
        full := ?_, defined := ?_, factory := ?_, flying := ?_, grounded := ?_, completed := ?_
        patches := rfl, preloads := listed.preloads, firstNamed := rfl }
    · exact fun held => (by cases held)
    · exact fun {r} known => absurd (status r) known
    · exact fun {r} fetched => (by rw [status] at fetched; cases fetched)
    · exact fun {r} saved => (by rw [status] at saved; exact absurd saved (by decide))
    · exact fun {r} saved => (by rw [status] at saved; exact absurd saved (by decide))
    · exact fun {r f} made => (by rw [record] at made; cases made)
    · exact fun {r} fetching => (by rw [status] at fetching; cases fetching)
    · exact fun flying => (by cases flying)
    · exact fun done => (by cases done)
  · exact List.forall_mem_nil _
  · intro b next waits
    rw [loader] at waits
    cases waits
  · rw [loader]
    rfl
  · exact List.forall_mem_nil _

namespace Session

variable {setup : Setup} {past : List Machine} {w : World}

theorem work {frame : Frame} {rest : List Frame} (session : Session setup past ⟨w, frame :: rest⟩)
    (listed : setup.Listed) (answers : setup.policy.Answers) :
    Work setup w frame (frame.exec w).1 (frame.exec w).2 :=
  session.plain.work session.tracked.sound listed answers session.tracked session.resourced

theorem step {frame : Frame} {rest : List Frame} (session : Session setup past ⟨w, frame :: rest⟩)
    (listed : setup.Listed) (answers : setup.policy.Answers) :
    Session setup (⟨w, frame :: rest⟩ :: past) ⟨(frame.exec w).1, (frame.exec w).2 ++ rest⟩ := by
  have sound := session.tracked.sound
  have effect := frame.effect sound
  have isPlain := (session.plain.frames frame (List.mem_cons_self ..)).1
  have work := session.work listed answers
  exact ⟨session.tracked.effect effect, session.linked.effect effect,
    resourced_cons listed effect session.plain.tabular.resolver session.resourced,
    session.plain.step sound effect (Frame.not_removed isPlain) work⟩

theorem acted {action : Action} (session : Session setup past ⟨w, []⟩)
    (hosted : action.isHosted Action.isLocal = true) :
    Session setup (⟨w, []⟩ :: past) ⟨w, [.script .outer [action]]⟩ := by
  refine ⟨session.tracked.acted action, session.linked.acted action, session.resourced, ?_⟩
  have plain := session.plain
  refine ⟨plain.tabular, plain.offers, plain.policy, ?_, plain.loads, plain.named, ?_⟩
  · intro f member
    obtain rfl := List.mem_singleton.mp member
    refine ⟨?_, trivial⟩
    simp only [Frame.isPlain, Action.allHosted, Bool.and_true, hosted, Site.outer, Option.isNone_none,
      Bool.true_or]
  · exact List.forall_mem_nil _

end Session

theorem session_of_hosted {setup : Setup} (listed : setup.Listed) (answers : setup.policy.Answers)
    {past : List Machine} {m : Machine}
    (run : Run (·.isHosted Action.isLocal = true) (.fresh setup) past m) : Session setup past m := by
  have fresh : Run (·.isHosted Action.isLocal = true) (.fresh setup) [] (.fresh setup) := .start
  refine run.invariant (P := Session setup) ?_ ?_ ?_
  · exact ⟨tracked_always fresh, linked_always fresh, List.forall_mem_nil _, .fresh listed⟩
  · exact fun past w frame rest _ session => session.step listed answers
  · exact fun past w action _ hosted session => session.acted hosted

theorem session_always {setup : Setup} (listed : setup.Listed) (answers : setup.policy.Answers)
    {past : List Machine} {m : Machine} (run : Run (·.isPlain = true) (.fresh setup) past m) :
    Session setup past m :=
  session_of_hosted listed answers (run.mono fun _ => Action.hosted_of_plain)

end ModuleLoader
