import ModuleLoader.Proofs.Effects.Edits

/-! What a loader holds of values. They come in with registrations and as interfaces, and nothing else that a
loader does brings one in, so if they are of a kind they go on to be of it. -/
namespace ModuleLoader

def Factory.Gives (P : Value → Prop) : Factory → Prop
  | .function .. => True
  | .value v => P v

/-- What a record holds is of a kind. -/
structure Record.Confined (P : Value → Prop) (r : Record) : Prop where
  exports : ∀ value, r.exports = some value → P value
  factory : ∀ factory, r.factory = some factory → factory.Gives P

/-- What a loader holds is of a kind. -/
structure Loader.Confined (P : Value → Prop) (l : Loader) : Prop where
  records : ∀ r, (l.record r).Confined P
  anonymous : ∀ definition, l.anonymous = some definition → definition.factory.Gives P

section

variable {P Q : Value → Prop}

theorem none_held {α : Type} {P : α → Prop} (a : α) (held : none = some a) : P a := by
  cases held

theorem Factory.Gives.mono (wide : ∀ value, P value → Q value) {factory : Factory} (gives : factory.Gives P) :
    factory.Gives Q := by
  cases factory with
  | function => trivial
  | value v => exact wide v gives

theorem Record.Confined.mono (wide : ∀ value, P value → Q value) {r : Record} (confined : r.Confined P) :
    r.Confined Q :=
  ⟨fun value held => wide value (confined.exports value held),
    fun factory held => (confined.factory factory held).mono wide⟩

/-- A record that nothing has been saved for holds nothing. -/
theorem Record.Confined.bare {r : Record} (exports : r.exports = none) (factory : r.factory = none) :
    r.Confined P := by
  refine ⟨fun value held => ?_, fun f held => ?_⟩
  · cases exports.symm.trans held
  · cases factory.symm.trans held

namespace Loader

variable {l l' : Loader}

theorem Confined.mono (wide : ∀ value, P value → Q value) (confined : l.Confined P) : l.Confined Q :=
  ⟨fun r => (confined.records r).mono wide, fun definition held => (confined.anonymous definition held).mono wide⟩

theorem Confined.of_same (confined : l.Confined P) (records : l'.records = l.records)
    (anonymous : l'.anonymous = l.anonymous) : l'.Confined P := by
  refine ⟨fun r => ?_, fun definition held => confined.anonymous definition (anonymous ▸ held)⟩
  rw [record, records]
  exact confined.records r

theorem Confined.update {r : RecordId} {f : Record → Record} (own : (f (l.record r)).Confined P)
    (confined : l.Confined P) : (l.updateRecord r f).Confined P := by
  refine ⟨fun x => ?_, confined.anonymous⟩
  obtain same | ⟨rfl, same⟩ := l.updateRecord_cases r f x <;> rw [same]
  · exact confined.records x
  · exact own

variable (confined : l.Confined P)

include confined

theorem emit_confined (d : Diagnostic) : (l.emit d).Confined P :=
  confined.of_same (l.emit_same d).2.1 (by unfold emit; split; dsimp only; split <;> rfl)

theorem setStatus_confined (r : RecordId) (s : Status) : (l.setStatus r s).Confined P := by
  have own := confined.records r
  have updated : (l.updateRecord r fun record => { record with status := s }).Confined P :=
    confined.update ⟨own.exports, own.factory⟩
  exact updated.of_same rfl rfl

theorem newRecord_confined (locator : Locator) (s : Status) : (l.newRecord locator s).1.Confined P := by
  refine ⟨fun r => ?_, confined.anonymous⟩
  obtain same | ⟨-, made⟩ := l.newRecord_cases locator s r
  · rw [same]
    exact confined.records r
  · rw [made]
    exact .bare rfl rfl

/-- What is saved is all that comes in. -/
theorem Confined.edits {permit : Permit} (edits : Edits permit l l')
    (gives : ∀ definition, permit.saves definition → definition.factory.Gives P) : l'.Confined P := by
  refine edits.lift (R := fun l l' => l.Confined P → l'.Confined P) (fun _ => id) (fun ab bc => bc ∘ ab)
    (fun edit confined => ?_) confined
  cases edit with
  | reported d => exact emit_confined confined d
  | made locator => exact newRecord_confined confined locator _
  | fetched => exact setStatus_confined confined _ _
  | saved dependencies below may =>
    refine confined.update ⟨(confined.records _).exports, fun factory held => ?_⟩
    cases held
    exact gives _ may
  | seconded => exact confined.update ⟨(confined.records _).exports, (confined.records _).factory⟩
  | parked waits may => exact ⟨confined.records, fun definition same => gives definition (may definition same)⟩
  | _ => exact confined.of_same rfl rfl

theorem arrive_confined (b : BarrierId) (loaded : Option RecordId) : (l.arrive b loaded).1.Confined P := by
  have counted {l : Loader} (confined : l.Confined P) : (l.countDown b).1.Confined P := by
    unfold countDown
    dsimp only
    split <;> exact confined.of_same rfl rfl
  cases loaded with
  | none => exact counted confined
  | some r =>
    refine counted (l := l.markReady r) ?_
    unfold markReady
    split
    · exact setStatus_confined confined r _
    · exact confined

theorem setExports_confined (r : RecordId) {value : Value} (kind : P value) :
    (l.setExports r value).Confined P := by
  refine confined.update ⟨fun v held => ?_, (confined.records r).factory⟩
  cases held
  exact kind

theorem beginCompile_confined (r : RecordId) {interface : Value} (kind : P interface) :
    (l.beginCompile r interface).Confined P := by
  refine confined.update ⟨fun v held => ?_, (confined.records r).factory⟩
  cases held
  exact kind

end Loader

end

end ModuleLoader
