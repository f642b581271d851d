import ModuleLoader.Description
import ModuleLoader.Loader.Pruning
import ModuleLoader.Machine.ValueActions

/-! Questions to the loader. Their answers go to the log and nothing else changes. -/
namespace ModuleLoader

def Query.name : Query → String
  | resolve .. => "resolve"
  | self => "self"
  | find _ => "find"
  | compiling => "compiling"
  | root => "root"
  | has _ => "has"
  | registry => "registry"
  | info _ => "info"
  | sameRecord .. => "same_record"
  | prune _ => "pure"
  | requestCount _ => "request_count"
  | inspect _ => "debug"

def Locator.reply (l : Locator) : Reply := .text l.text

/-- An action that needs a record which does not exist. -/
def Reply.absent : Reply := .text "absent"

namespace World

/-- What defines a record's interface. -/
def factoryKind (r : Record) : String :=
  match r.factory with
  | none => "none"
  | some factory => if factory.isFunction then "function" else "value"

/-- All about a record but its interface. -/
def outline (w : World) (r : RecordId) : List Reply :=
  let record := w.loader.record r
  [record.locator.reply, .text record.id, .text record.status.name,
    .many (record.dependencies.map Locator.reply), .ofOption Locator.reply record.secondLocator,
    .ofOption (fun i => (w.loader.record i).locator.reply) record.initiator,
    .text (factoryKind record)]

def info (w : World) (r : RecordId) : List Reply :=
  w.outline r ++ [w.displayOption (w.loader.record r).exports]

def inspect (w : World) (site : Site) : Inspection → String
  | .loader => w.loader.describe
  | .registry => w.loader.describeRegistry
  | .record ref =>
    Describe.option (fun r => (w.loader.record r).describe) (w.find? site ref)
  | .factory ref =>
    Describe.option (Factory.describe w.memory)
      ((w.find? site ref).bind fun r => (w.loader.record r).factory)
  | .requests => Describe.list FetchRequest.describe w.fetcher.requests.toList
  | .tokens =>
    if w.fetcher.isHost then
      Describe.list (Describe.option FetchToken.describe) w.fetcher.tokens.toList
    else ""
  | .nothing => ""

/-- Answers about a record, or that it is absent. -/
def aboutRecord (w : World) (site : Site) (ref : RecordRef) (f : RecordId → Reply) : Reply :=
  ((w.find? site ref).map f).getD .absent

/-- Inside a body, identifiers are resolved for its module unless another one is given. -/
def referrer (w : World) (site : Site) (given : Option String) : Option Locator :=
  match given with
  | some text => some ⟨text⟩
  | none => site.context.map fun c => (w.loader.record c.record).locator

def ask (w : World) (site : Site) : Query → Reply
  | .resolve id given => .ofOption Locator.reply (w.loader.resolve id (w.referrer site given))
  | .self =>
    match site.context with
    | some c =>
      .many [.flag true, .many (w.info c.record),
        .text ((w.loader.record c.record).describeAccessor)]
    | none => .text "no context"
  | .find selector =>
    match selector.read? with
    | some selector => .many ((w.loader.find selector).map w.display)
    | none => .text "invalid pattern"
  | .compiling =>
    .ofOption (fun r => (w.loader.record r).locator.reply) w.loader.compilingModule?
  | .root => .many [w.loader.config.root.reply, .text w.loader.config.base]
  | .has key => .flag (w.loader.registry.contains ⟨key⟩)
  | .registry =>
    .many [.number w.loader.registry.size, .flag w.loader.registry.isEmpty,
      .many (w.loader.registry.keys.map Locator.reply)]
  | .info ref => w.aboutRecord site ref fun r => .many (w.info r)
  | .sameRecord ref other =>
    w.aboutRecord site ref fun r =>
      match w.loader.entry? ⟨other⟩ with
      | some o => .flag (r = o)
      | none => .absent
  | .prune ref =>
    w.aboutRecord site ref fun r =>
      let (dependencies, circles) := w.loader.pureDependencies r
      .many [.many (dependencies.map Locator.reply), .many (circles.map (.text ·.message))]
  | .requestCount id => .number (w.fetcher.requestCount ⟨id⟩)
  | .inspect what => .text (w.inspect site what)

end World

end ModuleLoader
