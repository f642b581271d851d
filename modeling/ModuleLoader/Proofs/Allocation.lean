import Mathlib.Data.List.ReduceOption
import ModuleLoader.Proofs.Allocation.Evaluation
import ModuleLoader.Proofs.Allocation.Holding
import ModuleLoader.Proofs.Listed
import ModuleLoader.Proofs.Meaning.Requests

/-! Objects that have been made. A value that is an object stands for one that has been made, wherever the
value is held: in a variable, as a member, as an interface, in a registration or by what is still to be done. -/
namespace ModuleLoader

/-- All that a world holds has been made. -/
structure World.Whole (w : World) : Prop where
  memory : w.memory.Whole
  loader : w.loader.Confined w.memory.Has
  files : ∀ file ∈ w.fetcher.files, file.2.factory.Gives w.memory.Has
  vars : ∀ name value, w.vars.get? name = some value → w.memory.Has value
  answer : ∀ value, w.answer = some value → w.memory.Has value

/-- The interface that a body has been handed. -/
def Site.values (site : Site) : List Value := (site.context.map Context.handed).toList

/-- The values that a frame goes on with. -/
def Frame.values : Frame → List Value
  | .script site _ | .conclude site _ | .completeRest site _ => site.values
  | .gather _ interfaces _ | .collect _ interfaces _ | .deliver _ interfaces => interfaces.reduceOption
  | _ => []

/-- The member that an action changes. -/
def World.changes? (w : World) (site : Site) : Action → Option Memory.Change
  | .value (.insert target key e) | .value (.put target key e) =>
    let (w, target) := w.eval site target
    target.object?.map fun id => (id, key, some (w.eval site e).2)
  | .value (.dropKey target key) => (w.eval site target).2.object?.map fun id => (id, key, none)
  | .value (.setMember key e) =>
    ((site.context.map Context.handed).getD .null).object?.map fun id => (id, key, some (w.eval site e).2)
  | _ => none

/-- The member that a frame changes. -/
def Frame.changes? (w : World) : Frame → Option Memory.Change
  | .script site (action :: _) => w.changes? site action
  | .conclude site (.got _ (some key)) =>
    (site.context.bind fun c => c.handed.object?).map fun id => (id, key, some (w.answer.getD .null))
  | _ => none

namespace World

/-- All goes on to be made, and so is whatever new frames go on with; one member is changed, or none. -/
structure Keeps (w : World) (change : Option Memory.Change) (w' : World) (frames : List Frame) : Prop where
  memory : w.memory.Changes change w'.memory
  whole : w'.Whole
  frames : ∀ f ∈ frames, ∀ value ∈ f.values, w'.memory.Has value

/-- The interface that a body has been handed has been made. -/
abbrev Hosts (w : World) (site : Site) : Prop := ∀ value ∈ site.values, w.memory.Has value

variable {w w' : World} {site : Site} {change : Option Memory.Change}

theorem Hosts.mono (grows : w.memory.objects.size ≤ w'.memory.objects.size) (hosts : w.Hosts site) :
    w'.Hosts site := fun value member => (hosts value member).mono grows

theorem Hosts.handed (hosts : w.Hosts site) : w.memory.Has ((site.context.map Context.handed).getD .null) :=
  .getD fun value held => hosts value (Option.mem_toList.mpr held)

theorem Keeps.quiet {frames : List Frame} (whole : w'.Whole) (memory : w'.memory = w.memory)
    (plain : ∀ f ∈ frames, f.values = []) : Keeps w none w' frames := by
  refine ⟨.of_extends (memory ▸ .refl _), whole, fun f member value held => ?_⟩
  rw [plain f member] at held
  cases held

/-- Frames of the same body are left besides. -/
theorem Keeps.append {first last : List Frame} (keeps : Keeps w change w' first) (hosts : w.Hosts site)
    (own : ∀ f ∈ last, f.values = site.values) : Keeps w change w' (first ++ last) := by
  refine ⟨keeps.memory, keeps.whole, List.forall_mem_append.mpr ⟨keeps.frames, fun f member value held => ?_⟩⟩
  rw [own f member] at held
  exact (hosts value held).mono keeps.memory.grows

theorem Keeps.nil (more : w.memory.Extends w'.memory) (whole : w'.Whole) : Keeps w none w' [] :=
  ⟨.of_extends more, whole, List.forall_mem_nil _⟩

namespace Whole

theorem with_memory (whole : w.Whole) {m : Memory} (memory : m.Whole)
    (grows : w.memory.objects.size ≤ m.objects.size) : Whole { w with memory := m } :=
  ⟨memory, whole.loader.mono fun _ has => has.mono grows,
    fun file member => (whole.files file member).mono fun _ has => has.mono grows,
    fun name value held => (whole.vars name value held).mono grows,
    fun value held => (whole.answer value held).mono grows⟩

/-- A member is changed. -/
theorem changed (whole : w.Whole) (change : Option Memory.Change)
    (has : ∀ id key value, change = some (id, key, some value) → w.memory.Has value) :
    Whole { w with memory := w.memory.changed change } :=
  whole.with_memory (whole.memory.changed has) (Nat.le_of_eq (w.memory.size_changed change).symm)

theorem insert (whole : w.Whole) (target : Value) (key : String) {value : Value} (has : w.memory.Has value) :
    Whole { w with memory := (w.memory.insert target key value).1 } := by
  rw [Memory.insert_changed]
  refine whole.changed _ fun id k v same => ?_
  obtain ⟨_, -, same⟩ := Option.map_eq_some_iff.mp same
  cases same
  exact has

theorem with_loader (whole : w.Whole) {l : Loader} (confined : l.Confined w.memory.Has) :
    Whole { w with loader := l } :=
  ⟨whole.memory, confined, whole.files, whole.vars, whole.answer⟩

theorem with_answer (whole : w.Whole) {answer : Option Value}
    (has : ∀ value, answer = some value → w.memory.Has value) : Whole { w with answer } :=
  ⟨whole.memory, whole.loader, whole.files, whole.vars, has⟩

theorem write (whole : w.Whole) (place action : String) (reply : Option Reply) :
    (w.write place action reply).Whole :=
  ⟨whole.memory, whole.loader, whole.files, whole.vars, whole.answer⟩

theorem store (whole : w.Whole) (into : Option String) {value : Value} (has : w.memory.Has value) :
    (w.store into value).Whole := by
  cases into with
  | none => exact whole
  | some name =>
    refine ⟨whole.memory, whole.loader, whole.files, fun k v held => ?_, whole.answer⟩
    rw [World.store, OrderedMap.get?_insert] at held
    split at held
    · cases held
      exact has
    · exact whole.vars k v held

theorem exports (whole : w.Whole) (r : RecordId) :
    ∀ value, (w.loader.record r).exports = some value → w.memory.Has value :=
  (whole.loader.records r).exports

theorem scope (whole : w.Whole) (hosts : w.Hosts site) : (w.scope site).Whole w.memory := by
  refine ⟨whole.vars, hosts.handed, .getD fun value held => ?_⟩
  obtain ⟨c, -, held⟩ := Option.bind_eq_some_iff.mp held
  exact whole.exports c.record value held

theorem eval (whole : w.Whole) (hosts : w.Hosts site) (e : Expr) :
    (w.eval site e).1.Whole ∧ (w.eval site e).1.memory.Has (w.eval site e).2 := by
  obtain ⟨memory, has⟩ := e.eval_whole whole.memory (whole.scope hosts)
  exact ⟨whole.with_memory memory (e.eval_extends _ _).size, has⟩

theorem evalDraft (whole : w.Whole) (hosts : w.Hosts site) (draft : Draft) :
    (w.evalDraft site draft).1.Whole ∧
      (w.evalDraft site draft).2.factory.Gives (w.evalDraft site draft).1.memory.Has ∧
      w.memory.Extends (w.evalDraft site draft).1.memory := by
  obtain ⟨id, dependencies, factory⟩ := draft
  cases factory with
  | function body source =>
    rw [World.evalDraft, Draft.eval, FactoryDraft.eval]
    exact ⟨whole.with_memory whole.memory (Nat.le_refl _), trivial, .refl _⟩
  | value e =>
    obtain ⟨evaluated, has⟩ := whole.eval hosts e
    rw [World.evalDraft, Draft.eval, FactoryDraft.eval]
    exact ⟨evaluated, has, e.eval_extends _ _⟩

end Whole

theorem wrap_whole {m : Memory} (memory : m.Whole) (inLists : Bool) (times : Nat) {value : Value}
    (has : m.Has value) :
    (wrap m inLists times value).1.Whole ∧ (wrap m inLists times value).1.Has (wrap m inLists times value).2 := by
  induction times generalizing m value with
  | zero => exact ⟨memory, has⟩
  | succ times ih =>
    rw [wrap]
    cases inLists with
    | true => exact ih (m := (m.newList [value]).1) (memory.of_objects rfl) trivial
    | false =>
      refine ih (memory.newObject fun key v held => ?_) (Memory.has_newObject _ _)
      obtain ⟨-, rfl⟩ := Prod.mk.inj (List.mem_singleton.mp (OrderedMap.get?_ofList held))
      exact has

/-- An action on values changes the member that it is to change. -/
theorem actOnValues_changes (w : World) (site : Site) (a : ValueAction) :
    w.memory.Changes (w.changes? site (.value a)) (w.actOnValues site a).1.memory := by
  have twice (left right : Expr) : w.memory.Extends ((w.eval site left).1.eval site right).1.memory :=
    (w.eval_extends site left).trans (eval_extends _ site right)
  cases a with
  | insert target key e => exact ⟨_, twice target e, Memory.insert_changed ..⟩
  | setMember key e => exact ⟨_, w.eval_extends site e, Memory.insert_changed ..⟩
  | put target key e =>
    refine ⟨_, twice target e, ?_⟩
    simp only [actOnValues, onObject, changes?]
    cases (w.eval site target).2 <;> rfl
  | dropKey target key =>
    refine ⟨_, w.eval_extends site target, ?_⟩
    simp only [actOnValues, onObject, changes?]
    cases (w.eval site target).2 <;> rfl
  | _ => exact .of_extends (w.actOnValues_extends site rfl)

theorem actOnValues_whole (whole : w.Whole) (hosts : w.Hosts site) (a : ValueAction) :
    (w.actOnValues site a).1.Whole := by
  have twice (left right : Expr) : ((w.eval site left).1.eval site right).1.Whole ∧
      ((w.eval site left).1.eval site right).1.memory.Has ((w.eval site left).1.eval site right).2 :=
    (whole.eval hosts left).1.eval (hosts.mono (w.eval_extends site left).size) right
  cases a with
  | assign e into => exact (whole.eval hosts e).1.store into (whole.eval hosts e).2
  | nest e times inLists into =>
    obtain ⟨evaluated, has⟩ := whole.eval hosts e
    obtain ⟨memory, wrapped⟩ := wrap_whole evaluated.memory inLists times has
    exact (evaluated.with_memory memory (Memory.Extends.wrap ..).size).store into wrapped
  | display e | kind e => exact (whole.eval hosts e).1
  | equal left right | identical left right => exact (twice left right).1
  | insert target key value => exact (twice target value).1.insert _ key (twice target value).2
  | member e key into =>
    obtain ⟨evaluated, -⟩ := whole.eval hosts e
    exact evaluated.store into (.getD fun value held => evaluated.memory.member? held)
  | put target key value =>
    obtain ⟨evaluated, has⟩ := twice target value
    simp only [actOnValues, onObject]
    split
    · exact evaluated.changed (some (_, key, some _)) fun _ _ _ same => by cases same; exact has
    · exact evaluated
  | dropKey target key =>
    obtain ⟨evaluated, -⟩ := whole.eval hosts target
    simp only [actOnValues, onObject]
    split
    · exact evaluated.changed (some (_, key, none)) fun _ _ _ same => by cases same
    · exact evaluated
  | hasKey e | keys e =>
    simp only [actOnValues, onObject]
    split <;> exact (whole.eval hosts e).1
  | compareObjects left right =>
    simp only [actOnValues, onObject]
    split
    · split <;> exact (twice left right).1
    · exact (twice left right).1
  | setMember key value => exact (whole.eval hosts value).1.insert _ key (whole.eval hosts value).2
  | bump counter into =>
    have counted (n : Int) : Whole { w with counters := w.counters.insert counter n } :=
      ⟨whole.memory, whole.loader, whole.files, whole.vars, whole.answer⟩
    exact (counted _).store into trivial
  | note text => exact whole

theorem permitted (whole : w.Whole) (definition : Definition) (given : w.permit.saves definition) :
    definition.factory.Gives w.memory.Has := by
  obtain ⟨file, among, rfl⟩ := given
  exact whole.files file among

theorem evaluate_whole (whole : w.Whole) (resource : PhysicalId) : (w.evaluate resource).Whole :=
  whole.with_loader (whole.loader.edits (w.evaluate_edits resource) (permitted whole))

theorem evaluateDerived_whole (whole : w.Whole) (token : FetchToken) : (w.evaluateDerived token).Whole :=
  whole.with_loader (whole.loader.edits (w.evaluateDerived_edits token) (permitted whole))

theorem retrieve_whole (whole : w.Whole) (token : FetchToken) :
    (w.retrieve token).1.Whole ∧ (w.retrieve token).1.memory = w.memory ∧
      ∀ f ∈ (w.retrieve token).2, f.values = [] := by
  have logged (request : FetchRequest) : Whole { w with fetcher := w.fetcher.logRequest request } :=
    ⟨whole.memory, whole.loader, whole.files, whole.vars, whole.answer⟩
  have one : ∀ f ∈ [Frame.retrieved token], f.values = [] := List.forall_mem_singleton.mpr rfl
  unfold retrieve
  dsimp only
  split
  · exact ⟨evaluate_whole (logged _) _, rfl, one⟩
  · exact ⟨whole, rfl, one⟩
  · exact ⟨⟨whole.memory, whole.loader, whole.files, whole.vars, whole.answer⟩, rfl, List.forall_mem_nil _⟩
  · exact ⟨evaluateDerived_whole (logged _) _, rfl, one⟩
  · exact ⟨⟨whole.memory, whole.loader, whole.files, whole.vars, whole.answer⟩, rfl, List.forall_mem_nil _⟩
  · exact ⟨(logged _).with_loader (Loader.emit_confined whole.loader _), rfl, List.forall_mem_nil _⟩

theorem enter_keeps (whole : w.Whole) (locator : Locator) (b : BarrierId) :
    Keeps w none (w.enter locator b).1 (w.enter locator b).2 := by
  have made := whole.loader.edits (w.loader.ensure_edits locator (s := .fetching) (by decide)) fun _ => False.elim
  have one : ∀ f ∈ [Frame.settled locator b], f.values = [] := List.forall_mem_singleton.mpr rfl
  unfold enter
  generalize w.loader.ensure locator .fetching = ensured at *
  obtain ⟨l, r⟩ := ensured
  dsimp only at *
  split
  · exact .quiet (whole.with_loader made) rfl one
  · have awaited := whole.with_loader (made.edits (l.awaitResource_edits ⟨locator, b⟩) fun _ => False.elim)
    split
    · exact .quiet awaited rfl one
    · exact .quiet awaited rfl (List.forall_mem_nil _)
    · obtain ⟨retrieved, memory, plain⟩ := retrieve_whole awaited _
      exact .quiet retrieved memory plain

theorem arrive_keeps (whole : w.Whole) (b : BarrierId) (loaded : Option RecordId) :
    Keeps w none (w.arrive b loaded).1 (w.arrive b loaded).2 := by
  refine .quiet (whole.with_loader (Loader.arrive_confined whole.loader b loaded)) rfl fun f member => ?_
  obtain ⟨next, -, rfl⟩ := Option.map_eq_some_iff.mp (Option.mem_toList.mp member)
  rfl

theorem settle_keeps (whole : w.Whole) (locator : Locator) (b : BarrierId) :
    Keeps w none (w.settle locator b).1 (w.settle locator b).2 := by
  have read := whole.with_loader (whole.loader.edits (w.loader.settledEntry_edits locator) fun _ => False.elim)
  have onward {loaded : Option RecordId} := arrive_keeps read b loaded
  unfold settle
  generalize w.loader.settledEntry locator = entry at *
  obtain ⟨l, entry⟩ := entry
  cases entry with
  | missing | ready => exact ⟨onward.memory, onward.whole, onward.frames⟩
  | waits => exact .quiet read rfl (List.forall_mem_singleton.mpr rfl)

theorem bindArguments_whole (whole : w.Whole) {interfaces : List (Option Value)}
    (has : ∀ value ∈ interfaces.reduceOption, w.memory.Has value) : (w.bindArguments interfaces).Whole := by
  have each : ∀ argument ∈ interfaces.zipIdx, ∀ value, argument.1 = some value → w.memory.Has value := by
    intro argument member value held
    refine has value (List.reduceOption_mem_iff.mpr ?_)
    rw [← held]
    exact List.fst_mem_of_mem_zipIdx member
  unfold bindArguments
  generalize interfaces.zipIdx = numbered at each ⊢
  clear has
  induction numbered generalizing w with
  | nil => exact whole
  | cons argument rest ih =>
    obtain ⟨first, others⟩ := List.forall_mem_cons.mp each
    exact ih (whole.store _ (.getD first)) others

theorem callBack_keeps (whole : w.Whole) (callback : Callback) {interfaces : List (Option Value)}
    (has : ∀ value ∈ interfaces.reduceOption, w.memory.Has value) :
    Keeps w none (w.callBack callback interfaces).1 (w.callBack callback interfaces).2 := by
  refine .quiet (bindArguments_whole (whole.write _ _ _) has) ?_ (List.forall_mem_singleton.mpr rfl)
  exact bindArguments_memory _ _

theorem compile_keeps (whole : w.Whole) (r : RecordId) : Keeps w none (w.compile r).1 (w.compile r).2 := by
  have answered (answer : Option Value) (has : ∀ value, answer = some value → w.memory.Has value) :
      Keeps w none { w with answer } [] := .nil (.refl _) (whole.with_answer has)
  have more := Memory.Extends.newObject w.memory ∅
  have begun := (whole.with_memory (whole.memory.newObject no_members) more.size).with_loader
    (Loader.beginCompile_confined (whole.loader.mono fun _ has => has.mono more.size) r
      (Memory.has_newObject w.memory ∅))
  unfold compile
  split
  · exact answered _ (whole.exports r)
  · exact answered _ (whole.exports r)
  · split
    · dsimp only
      split
      · exact ⟨.of_extends more, begun.with_loader (begun.loader.of_same rfl rfl), by simp [Frame.values]⟩
      · rename_i value factory
        have has := (begun.loader.records r).factory _ factory
        exact ⟨.of_extends more, begun.with_loader (Loader.setExports_confined begun.loader r has), by simp [Frame.values]⟩
      · exact ⟨.of_extends more, begun, by simp [Frame.values]⟩
    · exact answered none none_held

theorem enterBody_keeps (whole : w.Whole) (r : RecordId) (role : String) (body : Script) :
    Keeps w none (w.enterBody r role body).1 (w.enterBody r role body).2 := by
  unfold enterBody
  dsimp only
  split
  · rename_i value exported
    refine ⟨.of_extends (.refl _), (whole.with_memory whole.memory (Nat.le_refl _)).write _ _ _, ?_⟩
    exact List.forall_mem_singleton.mpr (List.forall_mem_singleton.mpr (whole.exports r value exported))
  · have more := Memory.Extends.newObject w.memory ∅
    refine ⟨.of_extends more, (whole.with_memory (whole.memory.newObject no_members) more.size).write _ _ _, ?_⟩
    exact List.forall_mem_singleton.mpr (List.forall_mem_singleton.mpr (Memory.has_newObject w.memory ∅))

theorem getDependency_keeps (whole : w.Whole) (c : Context) (id : String) :
    Keeps w none (w.getDependency c id).1 (w.getDependency c id).2 := by
  have answered (answer : Option Value) (has : ∀ value, answer = some value → w.memory.Has value) :
      Keeps w none { w with answer } [] := .nil (.refl _) (whole.with_answer has)
  unfold getDependency
  dsimp only
  split
  · exact answered none none_held
  · split
    · exact answered none none_held
    · rename_i child _
      split
      · exact answered _ (whole.exports child)
      · exact answered _ (whole.exports child)
      · have own := whole.loader.records child
        exact .quiet (whole.with_loader (whole.loader.update ⟨own.exports, own.factory⟩)) rfl
          (List.forall_mem_singleton.mpr rfl)

theorem modify_keeps (whole : w.Whole) (id : String) (body : Script) :
    Keeps w none (w.modify id body).1 (w.modify id body).2 := by
  have issued (n : Nat) : Whole { w with issued := n } :=
    ⟨whole.memory, whole.loader, whole.files, whole.vars, whole.answer⟩
  have queued (n : Nat) (patch : Patch) :
      Keeps w none { w with issued := n, loader := w.loader.queuePatch patch } [] :=
    .nil (.refl _) ((issued n).with_loader (whole.loader.of_same rfl rfl))
  unfold modify
  split
  · exact .nil (.refl _) (whole.with_loader (Loader.emit_confined whole.loader _))
  · dsimp only [newPatch]
    split
    · split
      · exact .quiet (issued _) rfl (by simp [Frame.values])
      · exact queued _ _
    · exact queued _ _

/-- A file is read, or a registration made, with what has been evaluated. -/
theorem registered (whole : w.Whole) (hosts : w.Hosts site) (draft : Draft) {f : Loader → Registration → Loader}
    (edits : ∀ l registration,
      Loader.Edits { reports := True, saves := (· = registration.definition) } l (f l registration)) :
    Keeps w none { (w.evalDraft site draft).1 with
      loader := f (w.evalDraft site draft).1.loader (w.evalDraft site draft).2 } [] := by
  obtain ⟨evaluated, gives, more⟩ := whole.evalDraft hosts draft
  refine .nil more (evaluated.with_loader (evaluated.loader.edits (edits _ _) ?_))
  rintro _ rfl
  exact gives

theorem Keeps.write {frames : List Frame} (keeps : Keeps w change w' frames) (place action : String)
    (reply : Option Reply) : Keeps w change (w'.write place action reply) frames :=
  ⟨keeps.memory, keeps.whole.write place action reply, keeps.frames⟩

theorem actOnToken_keeps (whole : w.Whole) (hosts : w.Hosts site) (index : Nat) (action : TokenAction) :
    Keeps w none (w.actOnToken site index action).1 (w.actOnToken site index action).2 := by
  have still : Keeps w none w [] := .nil (.refl _) whole
  have dropped : (w.dropToken index).Whole :=
    ⟨whole.memory, whole.loader, whole.files, whole.vars, whole.answer⟩
  unfold actOnToken
  split
  · exact still.write _ _ _
  · cases action with
    | look => exact still.write _ _ _
    | define draft =>
      exact (registered whole hosts draft fun l registration => l.register_edits registration none).write _ _ _
    | defineDerived draft =>
      exact (registered whole hosts draft fun l registration => l.defineDerived_edits registration _).write _ _ _
    | complete =>
      have completes (token : FetchToken) : Keeps w none (w.dropToken index) [.retrieved token] :=
        .quiet dropped rfl (List.forall_mem_singleton.mpr rfl)
      exact (completes _).append hosts (List.forall_mem_singleton.mpr rfl)
    | abandon =>
      have abandoned (token : FetchToken) : Keeps w none ((w.dropToken index).abandon token) [] :=
        .nil (.refl _) (dropped.with_loader (Loader.emit_confined dropped.loader _))
      exact (abandoned _).write _ _ _

theorem completeTaken_keeps (whole : w.Whole) (hosts : w.Hosts site) (action : String)
    {taken : Option (World × FetchToken)}
    (same : ∀ w' token, taken = some (w', token) → w'.Whole ∧ w'.memory = w.memory) :
    Keeps w none (w.completeTaken site action taken).1 (w.completeTaken site action taken).2 := by
  have still : Keeps w none w [] := .nil (.refl _) whole
  have concludes (reply : Reply) : Keeps w none w [.conclude site (.reply action reply)] :=
    still.append hosts (List.forall_mem_singleton.mpr rfl)
  unfold completeTaken
  split
  · exact concludes _
  · split
    · rename_i w' token
      obtain ⟨taken, memory⟩ := same w' token rfl
      have completes : Keeps w none (w'.evaluate token.resource) [.retrieved token] :=
        .quiet (evaluate_whole taken _) memory (List.forall_mem_singleton.mpr rfl)
      exact completes.append hosts (List.forall_mem_singleton.mpr rfl)
    · exact concludes _

theorem takeNext?_whole (whole : w.Whole) {token : FetchToken} (taken : w.takeNext? = some (w', token)) :
    w'.Whole ∧ w'.memory = w.memory := by
  unfold takeNext? at taken
  split at taken
  · cases taken
    exact ⟨⟨whole.memory, whole.loader, whole.files, whole.vars, whole.answer⟩, rfl⟩
  · cases taken

theorem takeQueued?_whole (whole : w.Whole) {resource : PhysicalId} {token : FetchToken}
    (taken : w.takeQueued? resource = some (w', token)) : w'.Whole ∧ w'.memory = w.memory := by
  unfold takeQueued? at taken
  split at taken
  · cases taken
    exact ⟨⟨whole.memory, whole.loader, whole.files, whole.vars, whole.answer⟩, rfl⟩
  · cases taken

theorem act_keeps (whole : w.Whole) (hosts : w.Hosts site) (action : Action) :
    Keeps w (w.changes? site action) (w.act site action).1 (w.act site action).2 := by
  have still : Keeps w none w [] := .nil (.refl _) whole
  have concludes {w' : World} {frames : List Frame} (keeps : Keeps w none w' frames) (conclusion : Conclusion) :
      Keeps w none w' (frames ++ [.conclude site conclusion]) :=
    keeps.append hosts (List.forall_mem_singleton.mpr rfl)
  have passes (n : Nat) {f : Frame} (plain : f.values = []) : Keeps w none { w with issued := n } [f] :=
    .quiet ⟨whole.memory, whole.loader, whole.files, whole.vars, whole.answer⟩ rfl
      (List.forall_mem_singleton.mpr plain)
  cases action with
  | value a =>
    have done : Keeps w (w.changes? site (.value a)) (w.actOnValues site a).1 [] :=
      ⟨w.actOnValues_changes site a, actOnValues_whole whole hosts a, List.forall_mem_nil _⟩
    simp only [act]
    generalize w.actOnValues site a = made at *
    obtain ⟨w', reply⟩ := made
    cases reply with
    | none => exact done
    | some reply => exact done.write _ _ _
  | query | unknown => exact still.write _ _ _
  | get id into key =>
    simp only [act]
    split
    · exact still.write _ _ _
    · exact concludes (getDependency_keeps whole _ id) _
  | loadAsync ids tag body =>
    simp only [act]
    split
    · exact still.write _ _ _
    · exact concludes (passes _ rfl) _
  | giveBack e =>
    obtain ⟨evaluated, has⟩ := whole.eval hosts e
    refine .nil (w.eval_extends site e) (evaluated.with_answer fun value held => ?_)
    cases held
    exact has
  | giveBackDependency id =>
    simp only [act]
    split
    · exact .nil (.refl _) (whole.with_answer none_held)
    · exact getDependency_keeps whole _ id
  | useModules ids tag body => exact concludes (passes _ rfl) _
  | load locators tag body => exact concludes (passes _ rfl) _
  | compile ref into =>
    simp only [act]
    split
    · exact still.write _ _ _
    · rename_i r _
      have compiles : Keeps w none w [.compile r] := .quiet whole rfl (List.forall_mem_singleton.mpr rfl)
      exact concludes compiles _
  | define draft =>
    exact registered whole hosts draft fun l registration => l.register_edits registration none
  | defineDerived draft derived =>
    exact registered whole hosts draft fun l registration => l.defineDerived_edits registration derived
  | describe draft =>
    obtain ⟨evaluated, -, more⟩ := whole.evalDraft hosts draft
    exact (Keeps.nil more evaluated).write _ _ _
  | modify id body => exact concludes (modify_keeps whole id body) _
  | preload id => exact .nil (.refl _) (whole.with_loader (whole.loader.of_same rfl rfl))
  | remove key =>
    have removed : Keeps w none { w with loader := w.loader.remove ⟨key⟩ } [] :=
      .nil (.refl _) (whole.with_loader (whole.loader.of_same rfl rfl))
    exact removed.write _ _ _
  | keep ref into =>
    simp only [act]
    split
    · exact still.write _ _ _
    · exact .nil (.refl _) ⟨whole.memory, whole.loader, whole.files, whole.vars, whole.answer⟩
  | setExports ref e =>
    simp only [act]
    split
    · exact still.write _ _ _
    · obtain ⟨evaluated, has⟩ := whole.eval hosts e
      exact .nil (w.eval_extends site e)
        (evaluated.with_loader (Loader.setExports_confined evaluated.loader _ has))
  | addFile resource draft =>
    obtain ⟨evaluated, gives, more⟩ := whole.evalDraft hosts draft
    refine .nil more ⟨evaluated.memory, evaluated.loader, ?_, evaluated.vars, evaluated.answer⟩
    exact List.forall_mem_append.mpr ⟨evaluated.files, List.forall_mem_singleton.mpr gives⟩
  | complete resource => exact completeTaken_keeps whole hosts _ fun _ _ taken => takeQueued?_whole whole taken
  | completeNext => exact completeTaken_keeps whole hosts _ fun _ _ taken => takeNext?_whole whole taken
  | completeAll =>
    simp only [act]
    split
    · exact still.append hosts (List.forall_mem_singleton.mpr rfl)
    · exact still.write _ _ _
  | token index a => exact actOnToken_keeps whole hosts index a
  | report severity message detail =>
    exact .nil (.refl _) (whole.with_loader (Loader.emit_confined whole.loader _))
  | clearDiagnostics => exact .nil (.refl _) (whole.with_loader (whole.loader.of_same rfl rfl))

theorem runScript_keeps (whole : w.Whole) (hosts : w.Hosts site) (actions : Script) :
    Keeps w ((Frame.script site actions).changes? w) (w.runScript site actions).1 (w.runScript site actions).2 := by
  cases actions with
  | nil => exact .nil (.refl _) (whole.with_answer none_held)
  | cons action rest =>
    have done := act_keeps whole hosts action
    simp only [runScript]
    split
    · exact done
    · exact done.append hosts (List.forall_mem_singleton.mpr rfl)

theorem conclude_keeps (whole : w.Whole) (site : Site) (conclusion : Conclusion) :
    Keeps w ((Frame.conclude site conclusion).changes? w) (w.conclude site conclusion) [] := by
  have answer : w.memory.Has (w.answer.getD .null) := .getD whole.answer
  have still {w' : World} (whole : w'.Whole) (memory : w'.memory = w.memory) : Keeps w none w' [] :=
    .quiet whole memory (List.forall_mem_nil _)
  cases conclusion with
  | got into key =>
    have stored := whole.store into answer
    have memory := w.store_memory into (w.answer.getD .null)
    cases key with
    | none => exact (still stored memory).write _ _ _
    | some key =>
      cases inside : site.context with
      | none =>
        simp only [conclude, inside, Frame.changes?, Option.bind_none, Option.map_none]
        exact (still stored memory).write _ _ _
      | some c =>
        simp only [conclude, inside, Frame.changes?, Option.bind_some]
        have inserted := stored.insert c.handed key (memory ▸ answer)
        have changes : w.memory.Changes (c.handed.object?.map fun id => (id, key, some (w.answer.getD .null)))
            ((w.store into (w.answer.getD .null)).memory.insert c.handed key (w.answer.getD .null)).1 :=
          ⟨_, .refl _, memory ▸ Memory.insert_changed ..⟩
        exact (Keeps.mk changes inserted (List.forall_mem_nil _)).write _ _ _
  | compiled into => exact (still (whole.store into answer) (w.store_memory _ _)).write _ _ _
  | reply => exact (still whole rfl).write _ _ _

end World

open World (Keeps)

/-- Whatever the next frame is, what it leaves has been made. -/
theorem Frame.keeps {w : World} {frame : Frame} (whole : w.Whole)
    (own : ∀ value ∈ frame.values, w.memory.Has value) :
    Keeps w (frame.changes? w) (frame.exec w).1 (frame.exec w).2 := by
  have quiet {l : Loader} (confined : l.Confined w.memory.Has) {frames : List Frame}
      (plain : ∀ f ∈ frames, f.values = []) : Keeps w none { w with loader := l } frames :=
    .quiet (whole.with_loader confined) rfl plain
  have goesOn {frames : List Frame} (plain : ∀ f ∈ frames, f.values = []) : Keeps w none w frames :=
    .quiet whole rfl plain
  have handsOn {f : Frame} (kept : ∀ value ∈ f.values, w.memory.Has value) : Keeps w none w [f] :=
    ⟨.of_extends (.refl _), whole, List.forall_mem_singleton.mpr kept⟩
  have more {interfaces : List (Option Value)} (own : ∀ value ∈ interfaces.reduceOption, w.memory.Has value)
      {last : Option Value} (has : ∀ value, last = some value → w.memory.Has value) :
      ∀ value ∈ (interfaces ++ [last]).reduceOption, w.memory.Has value := by
    intro value member
    rcases List.mem_append.mp (List.reduceOption_mem_iff.mp member) with old | new
    · exact own value (List.reduceOption_mem_iff.mpr old)
    · exact has value (List.mem_singleton.mp new).symm
  cases frame with
  | script site actions => exact World.runScript_keeps whole own actions
  | conclude site conclusion => exact World.conclude_keeps whole site conclusion
  | load locators next =>
    simp only [exec, World.load]
    split
    · exact goesOn (List.forall_mem_singleton.mpr rfl)
    · refine .quiet (whole.with_loader ?_) rfl (List.forall_mem_singleton.mpr rfl)
      exact whole.loader.of_same rfl rfl
  | entries locators b =>
    cases locators with
    | nil => exact goesOn (List.forall_mem_nil _)
    | cons locator rest =>
      have entered := World.enter_keeps whole locator b
      refine ⟨entered.memory, entered.whole, List.forall_mem_append.mpr ⟨entered.frames, ?_⟩⟩
      exact List.forall_mem_singleton.mpr (List.forall_mem_nil _)
  | settled locator b => exact World.settle_keeps whole locator b
  | resume next =>
    cases next with
    | arrive b r => exact World.arrive_keeps whole b (some r)
    | call callback => exact World.callBack_keeps whole callback (List.forall_mem_nil _)
    | request | preload | gather => exact goesOn (List.forall_mem_singleton.mpr rfl)
  | request => exact goesOn (List.forall_mem_singleton.mpr rfl)
  | preload next =>
    simp only [exec, World.preload]
    split
    · exact goesOn (List.forall_mem_singleton.mpr rfl)
    · refine .quiet (whole.with_loader ?_) rfl (List.forall_mem_singleton.mpr rfl)
      exact whole.loader.of_same rfl rfl
  | gather locators interfaces receiver =>
    cases locators with
    | nil => exact handsOn own
    | cons locator rest =>
      simp only [exec, World.gather]
      split
      · exact ⟨.of_extends (.refl _), whole, List.forall_mem_cons.mpr
          ⟨List.forall_mem_nil _, List.forall_mem_singleton.mpr own⟩⟩
      · exact handsOn (more own none_held)
  | collect locators interfaces receiver => exact handsOn (more own whole.answer)
  | deliver receiver interfaces =>
    cases receiver with
    | host callback => exact World.callBack_keeps whole callback own
    | discard => exact goesOn (List.forall_mem_singleton.mpr rfl)
  | retrieved token =>
    refine quiet (whole.loader.edits (w.loader.finishFetch_edits token) whole.loader.anonymous) fun f member => ?_
    obtain ⟨waiter, -, rfl⟩ := List.mem_map.mp member
    rfl
  | compile r => exact World.compile_keeps whole r
  | runFactory r body => exact World.enterBody_keeps whole r "factory" body
  | runPatch r patch => exact World.enterBody_keeps whole r "patch" patch.body
  | replaceInterface r =>
    simp only [exec]
    split
    · rename_i value answers
      exact quiet (Loader.setExports_confined whole.loader r (whole.answer value answers)) (List.forall_mem_nil _)
    · exact goesOn (List.forall_mem_nil _)
  | leaveFactory =>
    exact quiet (l := w.loader.leaveFactory) (whole.loader.of_same rfl rfl) (List.forall_mem_nil _)
  | finishCompile r =>
    refine quiet (Loader.setStatus_confined whole.loader r .compiled) fun f member => ?_
    rcases List.mem_append.mp member with queue | last
    · obtain ⟨key, -, rfl⟩ := List.mem_map.mp queue
      rfl
    · exact List.mem_singleton.mp last ▸ rfl
  | applyPatches key r =>
    refine quiet (l := (w.loader.takePatches key).1) (whole.loader.of_same rfl rfl) fun f member => ?_
    obtain ⟨patch, -, here⟩ := List.mem_flatMap.mp member
    rcases List.mem_cons.mp here with rfl | last
    · rfl
    · exact List.mem_singleton.mp last ▸ rfl
  | answerExports r => exact .nil (.refl _) (whole.with_answer (whole.exports r))
  | completeRest site done =>
    simp only [exec]
    split
    · rename_i w' token taken
      obtain ⟨still, memory⟩ := World.takeNext?_whole whole taken
      have completes : Keeps w none (w'.evaluate token.resource) [.retrieved token] :=
        .quiet (World.evaluate_whole still _) memory (List.forall_mem_singleton.mpr rfl)
      exact completes.append own (List.forall_mem_singleton.mpr rfl)
    · exact (Keeps.nil (.refl _) whole).write _ _ _

/-- All files are read before anything has been registered. -/
theorem World.start_whole (setup : Setup) : (World.start setup).Whole := by
  have read (files : List (PhysicalId × Draft)) {w : World} (whole : w.Whole) :
      (files.foldl readFile w).Whole := by
    induction files generalizing w with
    | nil => exact whole
    | cons file files ih =>
      have outer : w.Hosts .outer := List.forall_mem_nil _
      obtain ⟨evaluated, gives, -⟩ := whole.evalDraft outer file.2
      refine ih ⟨evaluated.memory, evaluated.loader, ?_, evaluated.vars, evaluated.answer⟩
      exact List.forall_mem_append.mpr ⟨evaluated.files, List.forall_mem_singleton.mpr gives⟩
  rw [start_eq]
  refine read setup.files ⟨fun _ => no_members, ⟨fun r => ?_, none_held⟩, List.forall_mem_nil _,
    fun _ => none_held, none_held⟩
  exact .bare rfl rfl

/-- At every moment of a session, all that is held has been made. -/
theorem whole_always {host : Action → Prop} {setup : Setup} {past : List Machine} {m : Machine}
    (run : Run host (.fresh setup) past m) :
    m.world.Whole ∧ ∀ f ∈ m.stack, ∀ value ∈ f.values, m.world.memory.Has value := by
  refine run.invariant (P := fun _ m => m.world.Whole ∧
    ∀ f ∈ m.stack, ∀ value ∈ f.values, m.world.memory.Has value) ?_ ?_ ?_
  · exact ⟨World.start_whole setup, List.forall_mem_nil _⟩
  · rintro past w frame rest - ⟨whole, own⟩
    have keeps := Frame.keeps whole (own frame (List.mem_cons_self ..))
    refine ⟨keeps.whole, List.forall_mem_append.mpr ⟨keeps.frames, fun f member value held => ?_⟩⟩
    exact (own f (List.mem_cons_of_mem _ member) value held).mono keeps.memory.grows
  · rintro past w action - - ⟨whole, -⟩
    exact ⟨whole, List.forall_mem_singleton.mpr (List.forall_mem_nil _)⟩

end ModuleLoader
