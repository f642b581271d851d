import ModuleLoader.Text.Combining
import ModuleLoader.Text.Unprintable

/-! Texts shown in double quotes. What could not be read on a page, or could end the text early,
is written as an escape. -/
namespace ModuleLoader.Text

/-- A code point in braces, in lower-case hexadecimal without padding. -/
def codeEscape (c : Char) : List Char :=
  '\\' :: 'u' :: '\x7b' :: Nat.toDigits 16 c.toNat ++ ['\x7d']

/-- Quote, backslash and four controls have short escapes; an apostrophe stands for itself. -/
def escapeChar (c : Char) : List Char :=
  if c = '"' then ['\\', '"']
  else if c = '\\' then ['\\', '\\']
  else if c = '\n' then ['\\', 'n']
  else if c = '\r' then ['\\', 'r']
  else if c = '\t' then ['\\', 't']
  else if c = '\x00' then ['\\', '0']
  else if isCombining c || isUnprintable c then codeEscape c
  else [c]

def quoted (s : String) : String :=
  String.ofList ('"' :: s.toList.flatMap escapeChar ++ ['"'])

end ModuleLoader.Text
