import ModuleLoader.Proofs.Effects.Records

/-! What locators stand for. An entry of the registry comes about with a record made for it, and it passes
to another record in few ways, which have in common that what has been lost does not come back. -/
namespace ModuleLoader

open Relation (ReflTransGen)

namespace Loader

/-- Every locator stands for the record that it stood for, and records go by the names that they had. -/
structure Rests (l l' : Loader) : Prop where
  registry : l'.registry = l.registry
  size : l'.records.size = l.records.size
  locator : ∀ r, (l'.record r).locator = (l.record r).locator
  second : ∀ r, (l'.record r).secondLocator = (l.record r).secondLocator
  rises : ∀ r, l.status r ≤ l'.status r
  steady : ∀ r, l'.status r = .fetching → l.status r = .fetching

/-- A locator stands for a record that was made for it. -/
structure Adds (l : Loader) (locator : Locator) (l' : Loader) : Prop where
  entry : ∀ x, l'.entry? x = if locator = x then some ⟨l.records.size⟩ else l.entry? x
  size : l'.records.size = l.records.size + 1
  own : (l'.record ⟨l.records.size⟩).locator = locator
  alone : (l'.record ⟨l.records.size⟩).secondLocator = none
  known : l'.status ⟨l.records.size⟩ ≠ .unknown
  others : ∀ x, x ≠ ⟨l.records.size⟩ → l'.record x = l.record x
  named : l'.firstNamed = l.firstNamed

/-- A locator stands for a record that was there before, whose second locator it may become. -/
structure Gives (l : Loader) (locator : Locator) (r : RecordId) (l' : Loader) : Prop where
  entry : ∀ x, l'.entry? x = if locator = x then some r else l.entry? x
  size : l'.records.size = l.records.size
  own : ∀ x, (l'.record x).locator = (l.record x).locator
  second : ∀ x, (l'.record x).secondLocator = (l.record x).secondLocator ∨
    x = r ∧ (l'.record x).secondLocator = some locator
  status : ∀ x, l'.status x = l.status x
  named : ∀ x, l'.firstNamed = some x → l.firstNamed = some x

/-- One change of the registry, or of anything that leaves it as it is. -/
inductive Renames (l : Loader) : Loader → Prop where
  | rests {l' : Loader} (rests : Rests l l')
      (named : ∀ r, l'.firstNamed = some r → l.firstNamed = some r ∨
        .saved ≤ l.status r ∧ ∃ k, l.entry? k = some r) : Renames l l'
  /-- A record that is not ready may give way to a new one that is saved too. -/
  | added {l' : Loader} (locator : Locator) (adds : Adds l locator l')
      (room : ∀ x, l.entry? locator = some x →
        l.status x = .saved ∧ .saved ≤ l'.status ⟨l.records.size⟩) : Renames l l'
  /-- A record that is not saved may give way to one that is further on. -/
  | given {l' : Loader} (locator : Locator) (r : RecordId) (gives : Gives l locator r l')
      (fetched : .fetched ≤ l.status r)
      (source : l.firstNamed = some r ∨ ∃ k, l.entry? k = some r)
      (room : ∀ x, l.entry? locator = some x → x ≠ r ∧ l.status x < .saved ∧
        (.saved ≤ l.status r ∨ l.status x = .fetching)) : Renames l l'

/-- A record that is being retrieved has no other name than its own. -/
def Solitary (l : Loader) : Prop :=
  ∀ locator r, l.entry? locator = some r → l.status r = .fetching → (l.record r).locator = locator

/-- A locator does not stand for a record, and will not do so again: the record is out of reach, or the
locator stands for another one that is saved. -/
def Lost (l : Loader) (locator : Locator) (r : RecordId) : Prop :=
  ((∀ x, l.entry? x ≠ some r) ∧ l.firstNamed ≠ some r) ∨
    ∃ x, x ≠ r ∧ l.entry? locator = some x ∧ .saved ≤ l.status x

/-- A record is registered under its names, unless they are lost to it. -/
def Faithful (l : Loader) : Prop :=
  ∀ r, r.index < l.records.size → ∀ key ∈ (l.record r).patchKeys,
    l.entry? key = some r ∨ l.Lost key r

theorem Lost.entry {l : Loader} {locator : Locator} {r : RecordId} (lost : l.Lost locator r) :
    l.entry? locator ≠ some r := by
  obtain ⟨nowhere, -⟩ | ⟨x, other, held, -⟩ := lost
  · exact nowhere locator
  · rw [held]
    exact fun same => other (Option.some.inj same)

theorem mem_patchKeys {record : Record} {key : Locator} :
    key ∈ record.patchKeys ↔ record.secondLocator = some key ∨ record.locator = key := by
  rw [Record.patchKeys, List.mem_append, Option.mem_toList, List.mem_singleton]
  exact or_congr_right eq_comm

namespace Rests

variable {l l' : Loader}

theorem refl (l : Loader) : Rests l l :=
  ⟨rfl, rfl, fun _ => rfl, fun _ => rfl, fun _ => Status.le_refl _, fun _ => id⟩

theorem trans {a b c : Loader} (ab : Rests a b) (bc : Rests b c) : Rests a c :=
  ⟨bc.registry.trans ab.registry, bc.size.trans ab.size, fun r => (bc.locator r).trans (ab.locator r),
    fun r => (bc.second r).trans (ab.second r), fun r => Status.le_trans (ab.rises r) (bc.rises r),
    fun r => ab.steady r ∘ bc.steady r⟩

theorem of_same (registry : l'.registry = l.registry) (records : l'.records = l.records) :
    Rests l l' := by
  have same (r : RecordId) : l'.record r = l.record r := by rw [record, record, records]
  refine ⟨registry, by rw [records], fun r => by rw [same], fun r => by rw [same], fun r => ?_, fun r => ?_⟩
  · rw [status, status, same]
    exact Status.le_refl _
  · rw [status, status, same]
    exact id

theorem of_eq (same : l' = l) : Rests l l' := same ▸ .refl l

/-- A record is changed, and its names stay. -/
theorem of_update (l : Loader) {r : RecordId} {f : Record → Record}
    (locator : (f (l.record r)).locator = (l.record r).locator)
    (second : (f (l.record r)).secondLocator = (l.record r).secondLocator)
    (rises : (l.record r).status ≤ (f (l.record r)).status)
    (steady : (f (l.record r)).status = .fetching → (l.record r).status = .fetching) :
    Rests l (l.updateRecord r f) := by
  have cases := l.updateRecord_cases r f
  refine ⟨rfl, Array.size_modify, fun x => ?_, fun x => ?_, fun x => ?_, fun x => ?_⟩
  · obtain same | ⟨rfl, same⟩ := cases x <;> rw [same]
    exact locator
  · obtain same | ⟨rfl, same⟩ := cases x <;> rw [same]
    exact second
  · rw [status, status]
    obtain same | ⟨rfl, same⟩ := cases x <;> rw [same]
    · exact Status.le_refl _
    · exact rises
  · rw [status, status]
    obtain same | ⟨rfl, same⟩ := cases x <;> rw [same]
    · exact id
    · exact steady

theorem entry (rests : Rests l l') (locator : Locator) : l'.entry? locator = l.entry? locator :=
  congrArg (OrderedMap.get? · locator) rests.registry

/-- The slot for a first module is as it was, or it is empty. -/
theorem renames (rests : Rests l l') (named : ∀ r, l'.firstNamed = some r → l.firstNamed = some r) :
    Renames l l' := .rests rests fun r first => .inl (named r first)

end Rests

namespace Renames

variable {l l' : Loader}

theorem rises (renames : Renames l l') (r : RecordId) : l.status r ≤ l'.status r := by
  cases renames with
  | rests rests => exact rests.rises r
  | added locator adds =>
    by_cases new : r = ⟨l.records.size⟩
    · have unknown : l.status r = .unknown := Decidable.byContradiction fun known => by
        have inside := index_lt_of_known known
        rw [new] at inside
        exact Nat.lt_irrefl _ inside
      rw [unknown]
      exact Nat.zero_le _
    · rw [status, status, adds.others r new]
      exact Status.le_refl _
  | given locator x gives => exact (gives.status r).symm ▸ Status.le_refl _

/-- The records that were there are not the new one. -/
theorem not_new {r : RecordId} (inside : r.index < l.records.size) : r ≠ ⟨l.records.size⟩ := by
  rintro rfl
  exact Nat.lt_irrefl _ inside

theorem sound (renames : Renames l l') (sound : Sound l) : Sound l' := by
  have rises := renames.rises
  have before {locator : Locator} {r : RecordId} (held : l.entry? locator = some r) :
      l'.status r ≠ .unknown := Status.ne_unknown_of_le (sound.known held) (rises r)
  have remembered {r : RecordId} (first : l.firstNamed = some r) : .saved ≤ l'.status r :=
    Status.le_trans (sound.named first) (rises r)
  cases renames with
  | rests rests named =>
    refine ⟨fun held => before ((rests.entry _).symm.trans held), fun {r} first => ?_⟩
    obtain earlier | ⟨saved, -⟩ := named r first
    · exact remembered earlier
    · exact Status.le_trans saved (rises r)
  | added locator adds =>
    refine ⟨fun {x r} held => ?_, fun first => remembered (adds.named.symm.trans first)⟩
    rw [adds.entry] at held
    split at held
    · cases held
      exact adds.known
    · exact before held
  | given locator x gives fetched =>
    refine ⟨fun {y r} held => ?_, fun first => remembered (gives.named _ first)⟩
    rw [gives.entry] at held
    split at held
    · cases held
      rw [gives.status]
      exact Status.ne_unknown_of_le (a := .fetched) (by decide) fetched
    · exact before held

/-- A locator keeps a record that is ready. -/
theorem keeps (renames : Renames l l') {locator : Locator} {r : RecordId}
    (held : l.entry? locator = some r) (ready : .ready ≤ l.status r) : l'.entry? locator = some r := by
  cases renames with
  | rests rests => exact (rests.entry locator).trans held
  | added x adds room =>
    rw [adds.entry, if_neg]
    · exact held
    · rintro rfl
      rw [(room r held).1] at ready
      exact absurd ready (by decide)
  | given x y gives fetched source room =>
    rw [gives.entry, if_neg]
    · exact held
    · rintro rfl
      obtain ⟨-, below, -⟩ := room r held
      exact absurd (Status.le_trans (by decide) ready) (Status.not_le.mpr below)

/-- What is in the registry stays there, for the same record or another. -/
theorem registered (renames : Renames l l') {locator : Locator}
    (registered : (l.entry? locator).isSome = true) : (l'.entry? locator).isSome = true := by
  cases renames with
  | rests rests =>
    rw [rests.entry]
    exact registered
  | added x adds =>
    rw [adds.entry]
    split
    · rfl
    · exact registered
  | given x r gives =>
    rw [gives.entry]
    split
    · rfl
    · exact registered

theorem solitary (renames : Renames l l') (sound : Sound l) (solitary : l.Solitary) : l'.Solitary := by
  intro locator r held fetching
  cases renames with
  | rests rests =>
    rw [rests.locator]
    exact solitary locator r ((rests.entry locator).symm.trans held) (rests.steady r fetching)
  | added x adds =>
    rw [adds.entry] at held
    split at held
    · rename_i here
      cases held
      exact adds.own.trans here
    · have old := not_new (index_lt_of_known (sound.known held))
      rw [adds.others r old]
      exact solitary locator r held (by rw [status, adds.others r old] at fetching; exact fetching)
  | given x y gives fetched =>
    rw [gives.status] at fetching
    rw [gives.entry] at held
    split at held
    · cases held
      exact absurd fetching (Status.ne_fetching (by decide) fetched)
    · rw [gives.own]
      exact solitary locator r held fetching

/-- What a record has lost does not come back to it. -/
theorem lost (renames : Renames l l') {locator : Locator} {r : RecordId}
    (inside : r.index < l.records.size) (lost : l.Lost locator r) : l'.Lost locator r := by
  have old := not_new inside
  have rises := renames.rises
  cases renames with
  | rests rests named =>
    obtain ⟨nowhere, unnamed⟩ | ⟨x, other, held, saved⟩ := lost
    · refine .inl ⟨fun x => by rw [rests.entry]; exact nowhere x, fun first => ?_⟩
      obtain before | ⟨-, k, held⟩ := named r first
      · exact unnamed before
      · exact nowhere k held
    · exact .inr ⟨x, other, (rests.entry locator).trans held, Status.le_trans saved (rises x)⟩
  | added y adds room =>
    obtain ⟨nowhere, unnamed⟩ | ⟨x, other, held, saved⟩ := lost
    · refine .inl ⟨fun x => ?_, fun first => unnamed (adds.named.symm.trans first)⟩
      rw [adds.entry]
      split
      · exact fun same => old (Option.some.inj same).symm
      · exact nowhere x
    · by_cases here : y = locator
      · subst here
        refine .inr ⟨⟨l.records.size⟩, old.symm, by rw [adds.entry, if_pos rfl], (room x held).2⟩
      · exact .inr ⟨x, other, by rw [adds.entry, if_neg here, held], Status.le_trans saved (rises x)⟩
  | given y r₀ gives fetched source room =>
    obtain ⟨nowhere, unnamed⟩ | ⟨x, other, held, saved⟩ := lost
    · have other : r₀ ≠ r := by
        rintro rfl
        obtain first | ⟨k, held⟩ := source
        · exact unnamed first
        · exact nowhere k held
      refine .inl ⟨fun x => ?_, fun first => unnamed (gives.named r first)⟩
      rw [gives.entry]
      split
      · exact fun same => other (Option.some.inj same)
      · exact nowhere x
    · refine .inr ⟨x, other, ?_, Status.le_trans saved (rises x)⟩
      rw [gives.entry, if_neg]
      · exact held
      · rintro rfl
        exact absurd saved (Status.not_le.mpr (room x held).2.1)

/-- A name that passes to another record is lost to the one that had it. -/
theorem faithful (renames : Renames l l') (sound : Sound l) (solitary : l.Solitary)
    (faithful : l.Faithful) : l'.Faithful := by
  intro r inside key member
  have lost (inside : r.index < l.records.size) (gone : l.Lost key r) : l'.Lost key r :=
    renames.lost inside gone
  cases renames with
  | rests rests =>
    rw [rests.size] at inside
    rw [mem_patchKeys, rests.second, rests.locator, ← mem_patchKeys] at member
    rw [rests.entry]
    exact (faithful r inside key member).imp id (lost inside)
  | added x adds room =>
    by_cases new : r = ⟨l.records.size⟩
    · subst new
      rw [mem_patchKeys, adds.alone, adds.own] at member
      obtain none | rfl := member
      · cases none
      · exact .inl (by rw [adds.entry, if_pos rfl])
    · have inside : r.index < l.records.size := by
        have other : r.index ≠ l.records.size := fun same => new (congrArg RecordId.mk same)
        have bound := adds.size
        omega
      rw [adds.others r new] at member
      obtain held | gone := faithful r inside key member
      · by_cases here : x = key
        · subst here
          exact .inr (.inr ⟨_, Ne.symm new, by rw [adds.entry, if_pos rfl], (room r held).2⟩)
        · exact .inl (by rw [adds.entry, if_neg here, held])
      · exact .inr (lost inside gone)
  | given x r₀ gives fetched source room =>
    rw [gives.size] at inside
    by_cases newly : key = x ∧ r = r₀
    · obtain ⟨rfl, rfl⟩ := newly
      exact .inl (by rw [gives.entry, if_pos rfl])
    · have member : key ∈ (l.record r).patchKeys := by
        rw [mem_patchKeys, gives.own] at member
        rw [mem_patchKeys]
        obtain same | ⟨here, now⟩ := gives.second r
        · rw [same] at member
          exact member
        · rw [now] at member
          exact .inr (member.resolve_left fun named => newly ⟨(Option.some.inj named).symm, here⟩)
      obtain held | gone := faithful r inside key member
      · by_cases here : x = key
        · subst here
          obtain ⟨other, below, saved | fetching⟩ := room r held
          · refine .inr (.inr ⟨r₀, other.symm, by rw [gives.entry, if_pos rfl], ?_⟩)
            rw [gives.status]
            exact saved
          · refine .inr (.inl ⟨fun y again => ?_, fun first => ?_⟩)
            · rw [gives.entry] at again
              split at again
              · exact other (Option.some.inj again).symm
              · rename_i elsewhere
                exact elsewhere ((solitary x r held fetching).symm.trans (solitary y r again fetching))
            · exact Status.ne_fetching (by decide) (sound.named (gives.named r first)) fetching
        · exact .inl (by rw [gives.entry, if_neg here, held])
      · exact .inr (lost inside gone)

theorem size_le (renames : Renames l l') : l.records.size ≤ l'.records.size := by
  cases renames with
  | rests rests => exact Nat.le_of_eq rests.size.symm
  | added locator adds => exact adds.size ▸ Nat.le_succ _
  | given locator r gives => exact Nat.le_of_eq gives.size.symm

end Renames

/-- Changes of the registry, one after the other. -/
def Renamed (l l' : Loader) : Prop := ReflTransGen Renames l l'

namespace Renamed

variable {l l' : Loader}

theorem of_eq (same : l' = l) : Renamed l l' := same ▸ ReflTransGen.refl

theorem of_rests (rests : Rests l l') (named : l'.firstNamed = l.firstNamed) : Renamed l l' :=
  .single (rests.renames fun _ first => named ▸ first)

theorem keeps (renamed : Renamed l l') {locator : Locator} {r : RecordId}
    (held : l.entry? locator = some r) (ready : .ready ≤ l.status r) : l'.entry? locator = some r := by
  suffices both : l'.entry? locator = some r ∧ .ready ≤ l'.status r from both.1
  induction renamed with
  | refl => exact ⟨held, ready⟩
  | tail _ renames ih => exact ⟨renames.keeps ih.1 ih.2, Status.le_trans ih.2 (renames.rises r)⟩

theorem registered (renamed : Renamed l l') {locator : Locator}
    (registered : (l.entry? locator).isSome = true) : (l'.entry? locator).isSome = true := by
  induction renamed with
  | refl => exact registered
  | tail _ renames ih => exact renames.registered ih

theorem lost (renamed : Renamed l l') {locator : Locator} {r : RecordId}
    (inside : r.index < l.records.size) (lost : l.Lost locator r) :
    r.index < l'.records.size ∧ l'.Lost locator r := by
  induction renamed with
  | refl => exact ⟨inside, lost⟩
  | tail _ renames ih => exact ⟨Nat.lt_of_lt_of_le ih.1 renames.size_le, renames.lost ih.1 ih.2⟩

theorem sound (renamed : Renamed l l') (sound : Sound l) : Sound l' := by
  induction renamed with
  | refl => exact sound
  | tail _ renames ih => exact renames.sound ih

theorem solitary (renamed : Renamed l l') (sound : Sound l) (solitary : l.Solitary) :
    l'.Solitary := by
  induction renamed with
  | refl => exact solitary
  | tail before renames ih => exact renames.solitary (Renamed.sound before sound) ih

theorem faithful (renamed : Renamed l l') (sound : Sound l) (solitary : l.Solitary)
    (faithful : l.Faithful) : l'.Faithful := by
  induction renamed with
  | refl => exact faithful
  | tail before renames ih =>
    exact renames.faithful (Renamed.sound before sound) (Renamed.solitary before sound solitary) ih

end Renamed

/-- The registry has changed, and no patch has been queued or taken. -/
structure Becomes (l l' : Loader) : Prop where
  renamed : Renamed l l'
  patches : l'.patches = l.patches

namespace Becomes

variable {l l' : Loader}

theorem refl (l : Loader) : Becomes l l := ⟨ReflTransGen.refl, rfl⟩

theorem trans {a b c : Loader} (ab : Becomes a b) (bc : Becomes b c) : Becomes a c :=
  ⟨ReflTransGen.trans ab.renamed bc.renamed, bc.patches.trans ab.patches⟩

theorem single (renames : Renames l l') (patches : l'.patches = l.patches) : Becomes l l' :=
  ⟨ReflTransGen.single renames, patches⟩

theorem of_rests (rests : Rests l l') (named : l'.firstNamed = l.firstNamed)
    (patches : l'.patches = l.patches) : Becomes l l' := ⟨.of_rests rests named, patches⟩

theorem sound (becomes : Becomes l l') (sound : Sound l) : Sound l' := becomes.renamed.sound sound

theorem foldl {α : Type} {f : Loader → α → Loader} (each : ∀ l a, Sound l → Becomes l (f l a))
    (sound : Sound l) (as : List α) : Becomes l (as.foldl f l) := by
  induction as generalizing l with
  | nil => exact .refl l
  | cons a as ih =>
    have first := each l a sound
    exact first.trans (ih (first.sound sound))

end Becomes

end Loader

end ModuleLoader
