import ModuleLoader.Locator
import ModuleLoader.Pattern.Reading
import ModuleLoader.Text.Search

/-! Choosing modules by their locators. -/
namespace ModuleLoader

inductive Selector where
  | contains (part : String)
  | pattern (p : Pattern)

/-- A selector as it is written down; a pattern may turn out to be malformed. -/
inductive SelectorText where
  | contains (part : String)
  | pattern (text : String)

def SelectorText.read? : SelectorText → Option Selector
  | contains part => some (.contains part)
  | pattern text => (Pattern.read? text).map .pattern

def Selector.selects (selector : Selector) (locator : Locator) : Bool :=
  match selector with
  | contains part => Text.occursIn part.toList locator.text.toList
  | pattern p => p.occursIn locator.text

end ModuleLoader
