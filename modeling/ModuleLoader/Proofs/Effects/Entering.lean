import ModuleLoader.Proofs.Effects.Entries

/-! What becomes of an entry of a load: it goes on at once, it waits for a retrieval that is under way, or it
starts one. -/
namespace ModuleLoader

open Loader (Sound Landed Becomes)

/-- The loader after an entry of a load has asked for its resource. -/
def World.asking (w : World) (locator : Locator) (b : BarrierId) : Loader :=
  ((w.loader.ensure locator .fetching).1.awaitResource ⟨locator, b⟩).1

/-- How an entry of a load is started with. Only who has to wait is asking. -/
inductive World.Enters (w : World) (locator : Locator) (b : BarrierId) :
    Option FetchToken → World × List Frame → Prop where
  | landed {r : RecordId} (held : Loader.entry? (w.loader.ensure locator .fetching).1 locator = some r)
      (fetched : .fetched ≤ (w.loader.ensure locator .fetching).1.status r) :
      Enters w locator b none
        ({ w with loader := (w.loader.ensure locator .fetching).1 }, [.settled locator b])
  | shared {known : RecordId} (fetches : (w.loader.ensure locator .fetching).1.Fetches locator)
      (found : (w.loader.ensure locator .fetching).1.retrieved?
        ((w.loader.ensure locator .fetching).1.resolver.physicalId locator) locator = some known)
      (loader : w.asking locator b = (w.loader.ensure locator .fetching).1.share locator known) :
      Enters w locator b none ({ w with loader := w.asking locator b }, [.settled locator b])
  | joined (fetches : (w.loader.ensure locator .fetching).1.Fetches locator)
      (missing : (w.loader.ensure locator .fetching).1.retrieved?
        ((w.loader.ensure locator .fetching).1.resolver.physicalId locator) locator = none) :
      Enters w locator b none ({ w with loader := w.asking locator b }, [])
  | started {token : FetchToken} (fetches : (w.loader.ensure locator .fetching).1.Fetches locator)
      (same : token = ⟨w.loader.resolver.physicalId locator, locator⟩)
      (grounded : w.loader.ledger.inFlight.get? token.resource = none)
      (missing : (w.loader.ensure locator .fetching).1.retrieved?
        ((w.loader.ensure locator .fetching).1.resolver.physicalId locator) locator = none) :
      Enters w locator b (some token) ({ w with loader := w.asking locator b }.retrieve token)

namespace World

variable {w : World}

theorem enters (sound : Sound w.loader) (locator : Locator) (b : BarrierId) :
    w.Enters locator b (w.startedBy? locator b) (w.enter locator b) := by
  have later := (w.loader.ensure_becomes locator).sound sound
  have quiet := w.loader.ensure_quiet locator .fetching
  have entry := w.loader.entry_ensure locator locator .fetching
  rw [if_pos rfl] at entry
  have await := (w.loader.ensure locator .fetching).1.awaitResource_cases ⟨locator, b⟩
  have fetches (below : ¬ .fetched ≤ (w.loader.ensure locator .fetching).1.status
      (w.loader.ensure locator .fetching).2) : (w.loader.ensure locator .fetching).1.Fetches locator := by
    refine ⟨_, entry, ?_⟩
    have known := later.known entry
    revert known below
    cases Loader.status _ (w.loader.ensure locator .fetching).2 <;> simp [Status.le_iff, Status.code]
  unfold startedBy? enter
  dsimp only at await ⊢
  split
  · rename_i fetched
    exact .landed entry fetched
  · rename_i below
    obtain ⟨known, found, same⟩ | ⟨waiters, missing, -, start, -⟩ |
      ⟨missing, grounded, start, -⟩ := await
    · rw [show ((w.loader.ensure locator .fetching).1.awaitResource ⟨locator, b⟩).2 = .ready from
        congrArg Prod.snd same]
      exact .shared (fetches below) found (congrArg Prod.fst same)
    · rw [start]
      exact .joined (fetches below) missing
    · rw [start]
      rw [quiet.resolver, quiet.ledger] at grounded
      exact .started (fetches below) (by rw [quiet.resolver]) (by rw [quiet.resolver]; exact grounded) missing

end World

end ModuleLoader
