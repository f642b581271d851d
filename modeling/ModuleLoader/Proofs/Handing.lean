import ModuleLoader.Proofs.Readiness

/-! Who hands on what. Requests, loads and the interfaces that they are to bring go from frame to frame: each
frame that carries any of them has them from the one in whose place it stands, from a load that is over, or
from an action of a script. -/
namespace ModuleLoader

open Loader (Sound)

/-- Frames that carry what comes next, or the interfaces that have been asked for. -/
def Frame.carries : Frame → Bool
  | .load .. | .resume _ | .request .. | .preload _ | .gather .. | .collect .. | .deliver .. => true
  | _ => false

theorem Frame.plain_of_goals {f : Frame} (goals : f.goals = []) : f.carries = false := by
  cases f <;> first | rfl | cases goals

/-- What a frame that is new has from the one that left it. -/
inductive Hands (w : World) : Frame → Frame → Prop where
  | other {frame f : Frame} (plain : f.carries = false) : Hands w frame f
  | used {site : Site} {ids : List String} {tag : String} {body later : Script} {callback : Callback}
      (number : callback.number = w.issued) :
      Hands w (.script site (.useModules ids tag body :: later)) (.preload (.request ids (.host callback)))
  | wanted {site : Site} {c : Context} {ids : List String} {tag : String} {body later : Script}
      {callback : Callback} (inside : site.context = some c) (number : callback.number = w.issued) :
      Hands w (.script site (.loadAsync ids tag body :: later))
        (.request (some (w.loader.record c.record).locator) ids (.host callback))
  | loaded {site : Site} {locators : List Locator} {tag : String} {body later : Script}
      {callback : Callback} (number : callback.number = w.issued) :
      Hands w (.script site (.load locators tag body :: later)) (.load locators (.call callback))
  | waits {locator : Locator} {b : BarrierId} {r : RecordId} {dependencies : List Locator} :
      Hands w (.settled locator b) (.load dependencies (.arrive b r))
  | arrived {frame : Frame} {b : BarrierId} {next : Continuation}
      (waits : (w.loader.barrier b).onDone = some next) : Hands w frame (.resume next)
  | ready {locators : List Locator} {next : Continuation} : Hands w (.load locators next) (.resume next)
  | requests {ids : List String} {receiver : Receiver} :
      Hands w (.resume (.request ids receiver)) (.request none ids receiver)
  | preloads {locators : List (Option Locator)} {receiver : Receiver} :
      Hands w (.resume (.preload locators receiver)) (.preload (.gather locators receiver))
  | gathers {locators : List (Option Locator)} {receiver : Receiver} :
      Hands w (.resume (.gather locators receiver)) (.gather locators [] receiver)
  | resolves {referrer : Option Locator} {ids : List String} {receiver : Receiver} :
      Hands w (.request referrer ids receiver)
        (.load ((ids.map (w.loader.resolve · referrer)).filterMap id)
          (.preload (ids.map (w.loader.resolve · referrer)) receiver))
  | unqueued {next : Continuation} : Hands w (.preload next) (.resume next)
  | queued {ids : List String} {next : Continuation} :
      Hands w (.preload next) (.request none ids (.discard next))
  | gathered {interfaces : List (Option Value)} {receiver : Receiver} :
      Hands w (.gather [] interfaces receiver) (.deliver receiver interfaces)
  | skips {locator : Option Locator} {locators : List (Option Locator)} {interfaces : List (Option Value)}
      {receiver : Receiver} (nowhere : locator.bind w.loader.entry? = none) :
      Hands w (.gather (locator :: locators) interfaces receiver)
        (.gather locators (interfaces ++ [none]) receiver)
  | compiles {k : Locator} {r : RecordId} {locators : List (Option Locator)}
      {interfaces : List (Option Value)} {receiver : Receiver} (held : w.loader.entry? k = some r) :
      Hands w (.gather (some k :: locators) interfaces receiver) (.collect locators interfaces receiver)
  | collects {locators : List (Option Locator)} {interfaces : List (Option Value)} {receiver : Receiver} :
      Hands w (.collect locators interfaces receiver)
        (.gather locators (interfaces ++ [w.answer]) receiver)
  | goesOn {next : Continuation} {interfaces : List (Option Value)} :
      Hands w (.deliver (.discard next) interfaces) (.resume next)

section

variable {w w' : World} {frame f : Frame} {frames : List Frame}

/-- A frame that is not waited for leaves nothing to be handed on, unless it passes on a callback. -/
theorem Effect.hands_plain (effect : Effect w frame (frame.occurrence w) w' frames) (goals : frame.goals = [])
    (other : frame.token? = none) (silent : ∀ wanted, frame.occurrence w ≠ .passed w.issued wanted)
    (member : f ∈ frames) : f.carries = false := by
  have plain (none : frames.flatMap Frame.goals = []) : f.carries = false :=
    Frame.plain_of_goals (List.flatMap_eq_nil_iff.mp none f member)
  generalize frame.occurrence w = o at *
  cases effect with
  | calm tame ledger barriers orderly same => exact plain (same.trans goals)
  | removed locator tame loader inHand same => exact plain (same.trans goals)
  | passed wanted => exact absurd rfl (silent wanted)
  | called number calm before after => exact plain after
  | opened same => cases same; cases goals
  | joined waiter waiters tame flying ledger barriers orderly inHand some => cases goals.symm.trans some
  | started waiter token tame same grounded stale ledger barriers orderly some =>
    cases goals.symm.trans some
  | arrived b tame ledger counted orderly inHand some => cases goals.symm.trans some
  | finished token tame same => cases same; cases other

/-- The last entry of a load brings on what the load was for. -/
theorem World.arrive_hands {l : Loader} (same : l.barriers = w.loader.barriers) (b : BarrierId)
    (loaded : Option RecordId) (member : f ∈ (World.arrive { w with loader := l } b loaded).2) :
    Hands w frame f := by
  obtain ⟨next, rfl, waits, -⟩ := (World.arrive_counted { w with loader := l } b loaded).1.resumes member
  refine .arrived (b := b) ?_
  rw [Loader.barrier, ← same]
  exact waits

/-- Which actions hand something on. -/
theorem World.runScript_hands (sound : Sound w.loader) {site : Site} {actions : Script}
    (member : f ∈ (w.runScript site actions).2) : Hands w (.script site actions) f := by
  have effect := (Frame.script site actions).effect sound
  by_cases silent : ∀ wanted, (Frame.script site actions).occurrence w ≠ .passed w.issued wanted
  · exact .other (effect.hands_plain rfl rfl silent member)
  · have last {last : Frame} (plain : last.carries = false) (here : f = last) :
        Hands w (.script site actions) f := .other (here ▸ plain)
    cases actions with
    | nil => cases member
    | cons action later =>
      cases action with
      | useModules ids tag body =>
        obtain here | here | here : f = _ ∨ f = _ ∨ f = _ := by simpa [runScript, act, endsScript] using member
        · exact here ▸ .used rfl
        · exact last rfl here
        · exact last rfl here
      | load locators tag body =>
        obtain here | here | here : f = _ ∨ f = _ ∨ f = _ := by simpa [runScript, act, endsScript] using member
        · exact here ▸ .loaded rfl
        · exact last rfl here
        · exact last rfl here
      | loadAsync ids tag body =>
        cases inside : site.context with
        | none =>
          refine absurd (fun wanted => ?_) silent
          simp [Frame.occurrence, asks?, inside]
        | some c =>
          obtain here | here | here : f = _ ∨ f = _ ∨ f = _ := by
            simpa [runScript, act, endsScript, inside] using member
          · exact here ▸ .wanted inside rfl
          · exact last rfl here
          · exact last rfl here
      | remove key =>
        refine absurd (fun wanted => ?_) silent
        simp only [Frame.occurrence, asks?]
        split <;> exact Occurrence.noConfusion
      | _ => exact absurd (fun wanted => Occurrence.noConfusion) silent

/-- Whatever a frame leaves has been handed on in one of these ways. -/
theorem Frame.hands (sound : Sound w.loader) (member : f ∈ (frame.exec w).2) : Hands w frame f := by
  have quiet (goals : frame.goals = []) (other : frame.token? = none)
      (silent : ∀ wanted, frame.occurrence w ≠ .passed w.issued wanted) : Hands w frame f :=
    .other ((frame.effect sound).hands_plain goals other silent member)
  cases frame with
  | script site actions => exact World.runScript_hands sound member
  | load locators next =>
    simp only [exec, World.load] at member
    split at member <;> obtain rfl := List.mem_singleton.mp member
    · exact .ready
    · exact .other rfl
  | entries locators b =>
    cases locators with
    | nil => cases member
    | cons locator rest =>
      rcases List.mem_append.mp member with new | last
      · obtain rfl | ⟨token, rfl⟩ := w.enter_frames locator b _ new <;> exact .other rfl
      · exact .other (List.mem_singleton.mp last ▸ rfl)
  | settled locator b =>
    have barriers := ((w.loader.settledEntry_edits locator).quiet id).barriers
    simp only [exec, World.settle] at member
    split at member
    · exact World.arrive_hands barriers b none member
    · exact World.arrive_hands barriers b (some _) member
    · exact List.mem_singleton.mp member ▸ .waits
  | resume next =>
    cases next with
    | arrive b r => exact World.arrive_hands (l := w.loader) rfl b (some r) member
    | request => exact List.mem_singleton.mp member ▸ .requests
    | preload => exact List.mem_singleton.mp member ▸ .preloads
    | gather => exact List.mem_singleton.mp member ▸ .gathers
    | call => exact .other (List.mem_singleton.mp member ▸ rfl)
  | request => exact List.mem_singleton.mp member ▸ .resolves
  | preload next =>
    simp only [exec, World.preload] at member
    split at member <;> obtain rfl := List.mem_singleton.mp member
    · exact .unqueued
    · exact .queued
  | gather locators interfaces receiver =>
    cases locators with
    | nil => exact List.mem_singleton.mp member ▸ .gathered
    | cons locator rest =>
      simp only [exec, World.gather] at member
      split at member
      · rename_i r held
        obtain ⟨k, rfl, held⟩ := Option.bind_eq_some_iff.mp held
        rcases List.mem_cons.mp member with rfl | last
        · exact .other rfl
        · exact List.mem_singleton.mp last ▸ .compiles held
      · rename_i nowhere
        exact List.mem_singleton.mp member ▸ .skips nowhere
  | collect => exact List.mem_singleton.mp member ▸ .collects
  | deliver receiver interfaces =>
    cases receiver with
    | host callback => exact .other (List.mem_singleton.mp member ▸ rfl)
    | discard next => exact List.mem_singleton.mp member ▸ .goesOn
  | retrieved token =>
    obtain ⟨waiter, -, rfl⟩ := List.mem_map.mp member
    exact .other rfl
  | _ => exact quiet rfl rfl fun _ => Occurrence.noConfusion

end

end ModuleLoader
