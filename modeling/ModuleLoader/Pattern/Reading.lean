import ModuleLoader.Pattern
import ModuleLoader.Pattern.Layout
import ModuleLoader.Text.Blank

/-! Written patterns: first split into tokens, then built up with a stack of open groups. Patterns
that are nested too deeply, or that take too much memory, are refused. -/
namespace ModuleLoader.Pattern

open Text (CharSet)

/-- How many levels of groups, repetitions, sequences, alternations and classes may lie within each
other. -/
def nestLimit : Nat := 250

/-- The most that a repetition can count to. -/
def countLimit : Nat := 1 <<< 32 - 1

/-- What was read of a pattern, and how many levels lie within each other there. -/
structure Part where
  shape : Shape CharSet
  depth : Nat
  repeatable : Bool := true

/-- The mark that asks to ignore case stands among the parts of a sequence. -/
def caseMark : Part := { shape := .empty, depth := 0, repeatable := false }

inductive Token where
  /-- The start of a group, with its place if its extent is marked. -/
  | opened (place : Option Nat)
  | closed
  | bar
  | atom (part : Part)
  | times (fewFirst : Bool) (least : Nat) (more : Option Nat)

/-- A repetition may be followed by a mark that asks for few. It changes what part is found first,
not whether there is one. -/
def splitFewMark : List Char → Bool × List Char
  | '?' :: rest => (true, rest)
  | text => (false, text)

def isPunctuation (c : Char) : Bool :=
  c.toNat < 0x80 && 0x20 < c.toNat && c.toNat != 0x7f && !c.isAlphanum && c != '<' && c != '>'

/-- What a backslash makes of the next character. -/
def escaped? (c : Char) : Option CharSet :=
  if c = 'd' then some .digits
  else if c = 'n' then some (.singleton '\n')
  else if c = 'r' then some (.singleton '\r')
  else if c = 't' then some (.singleton '\t')
  else if isPunctuation c then some (.singleton c)
  else none

/-- One member of a class: a character, or what a backslash makes of one. -/
def classMember? : List Char → Option (CharSet × List Char)
  | [] => none
  | '[' :: _ => none
  | '\\' :: c :: rest => (escaped? c).map (·, rest)
  | ['\\'] => none
  | c :: rest => some (.singleton c, rest)

/-- Two characters as the ends of a range. -/
def between? (first last : CharSet) : Option CharSet := do
  let a ← first.only?
  let b ← last.only?
  if a ≤ b then some ⟨[(a, b)]⟩ else none

/-- The members of a class up to its closing bracket, and the rest behind it. -/
def classItems? : Nat → List Char → Option (List CharSet × List Char)
  | 0, _ => none
  | fuel + 1, text =>
    match text with
    | ']' :: rest => some ([], rest)
    | _ => do
      let (first, rest) ← classMember? text
      let (item, rest) ← match rest with
        | '-' :: ']' :: _ => some (first, rest)
        | '-' :: '-' :: _ => none
        | '-' :: rest => do
          let (last, rest) ← classMember? rest
          let item ← between? first last
          some (item, rest)
        | _ => some (first, rest)
      let (items, rest) ← classItems? fuel rest
      some (item :: items, rest)

/-- A class behind its opening bracket. Dashes at its start stand for themselves, and so does a
closing bracket right there. A class of several members counts as two levels. -/
def class? (ignoreCase : Bool) (text : List Char) : Option (Part × List Char) := do
  let (negated, text) := match text with
    | '^' :: rest => (true, rest)
    | _ => (false, text)
  let dashes := text.takeWhile (· == '-')
  let text := text.dropWhile (· == '-')
  let (opening, text) := match dashes, text with
    | [], ']' :: rest => ([CharSet.singleton ']'], rest)
    | _, _ => (dashes.map .singleton, text)
  let (items, rest) ← classItems? (text.length + 1) text
  let items := opening ++ items
  let listed := CharSet.union items
  let listed := if ignoreCase then listed.closeCases else listed
  let part : Part :=
    { shape := .one (if negated then listed.complement else listed)
      depth := if items.length = 1 then 1 else 2 }
  some (part, rest)

def skipBlanks (text : List Char) : List Char := text.dropWhile Text.isBlank

/-- A decimal number with blanks around it. -/
def count? (text : List Char) : Option (Nat × List Char) :=
  let text := skipBlanks text
  let digits := text.takeWhile Char.isDigit
  let count := digits.foldl (fun n d => 10 * n + (d.toNat - '0'.toNat)) 0
  if digits.isEmpty || countLimit < count then none
  else some (count, skipBlanks (text.dropWhile Char.isDigit))

/-- The counts of a repetition behind its opening brace: the least, and how many more. -/
def counts? (text : List Char) : Option ((Nat × Option Nat) × List Char) := do
  let (least, rest) ← count? text
  match rest with
  | '\x7d' :: rest => some ((least, some 0), rest)
  | ',' :: '\x7d' :: rest => some ((least, none), rest)
  | ',' :: rest => do
    let (most, rest) ← count? rest
    match rest with
    | '\x7d' :: rest =>
      if least ≤ most then some ((least, some (most - least)), rest) else none
    | _ => none
  | _ => none

def leaf (shape : Shape CharSet) : Token := .atom { shape, depth := 0 }

/-- One character that belongs to the set, or to its cases. -/
def character (ignoreCase : Bool) (set : CharSet) : Token :=
  leaf (.one (if ignoreCase then set.closeCases else set))

/-- Any character but a line feed. -/
def anyCharacter : Token := leaf (.one (CharSet.singleton '\n').complement)

/-- The tokens of a written pattern. The place of a group is how much text is left behind its
opening parenthesis. -/
def tokens? (ignoreCase : Bool) : Nat → List Char → Option (List Token)
  | 0, _ => none
  | fuel + 1, text => do
    let go (token : Token) (rest : List Char) : Option (List Token) :=
      (tokens? ignoreCase fuel rest).map (token :: ·)
    let goTimes (least : Nat) (more : Option Nat) (rest : List Char) : Option (List Token) :=
      let (fewFirst, rest) := splitFewMark rest
      go (.times fewFirst least more) rest
    match text with
    | [] => some []
    | '(' :: '?' :: ':' :: rest => go (.opened none) rest
    | '(' :: '?' :: _ => none
    | '(' :: rest => go (.opened (some rest.length)) rest
    | ')' :: rest => go .closed rest
    | '|' :: rest => go .bar rest
    | '*' :: rest => goTimes 0 none rest
    | '+' :: rest => goTimes 1 none rest
    | '?' :: rest => goTimes 0 (some 1) rest
    | '\x7b' :: rest => do
      let ((least, more), rest) ← counts? rest
      goTimes least more rest
    | '[' :: rest => do
      let (part, rest) ← class? ignoreCase rest
      go (.atom part) rest
    | '.' :: rest => go anyCharacter rest
    | '^' :: rest => go (leaf .textStart) rest
    | '$' :: rest => go (leaf .textEnd) rest
    | '\\' :: c :: rest => do
      let set ← escaped? c
      go (character ignoreCase set) rest
    | ['\\'] => none
    | c :: rest => go (character ignoreCase (.singleton c)) rest

/-- An open group: its place if its extent could be told, its finished alternatives and the parts of
the current one, last first. -/
structure Group where
  place : Option Nat
  alternatives : List Part
  parts : List Part

namespace Group

/-- Several things at once are one level more than the deepest of them. -/
def enclose (parts : List Part) (join : List (Shape CharSet) → Shape CharSet) : Part :=
  match parts with
  | [part] => part
  | _ =>
    { shape := join (parts.map Part.shape)
      depth := (parts.map fun part => part.depth + 1).foldl max 0 }

def current (g : Group) : Part := enclose g.parts.reverse .concat

def whole (g : Group) : Part := enclose (g.current :: g.alternatives).reverse .alternation

/-- The closed group as a part of the one around it. -/
def closed (g : Group) : Part :=
  let inner := g.whole
  { shape := match g.place with
      | some place => .group place inner.shape
      | none => inner.shape
    depth := inner.depth + 1 }

def nextAlternative (g : Group) : Group :=
  { g with alternatives := g.current :: g.alternatives, parts := [] }

def add (g : Group) (part : Part) : Group := { g with parts := part :: g.parts }

end Group

/-- Groups that are open, innermost first. A repetition needs something to repeat, and a closing
parenthesis something to close. -/
def build (groups : List Group) (token : Token) : Option (List Group) :=
  match token, groups with
  | .opened place, _ => some (⟨place, [], []⟩ :: groups)
  | .closed, inner :: outer :: rest => some (outer.add inner.closed :: rest)
  | .bar, g :: rest => some (g.nextAlternative :: rest)
  | .atom part, g :: rest => some (g.add part :: rest)
  | .times fewFirst least more, ⟨place, alternatives, part :: parts⟩ :: rest =>
    if part.repeatable then
      let shape := part.shape.times fewFirst least more
      some (⟨place, alternatives, { shape, depth := part.depth + 1 } :: parts⟩ :: rest)
    else none
  | _, _ => none

/-- A mark at the very start asks to ignore case. -/
def splitMark : List Char → Bool × List Char
  | '(' :: '?' :: 'i' :: ')' :: rest => (true, rest)
  | text => (false, text)

/-- The pattern that a text stands for. -/
def read? (text : String) : Option Pattern := do
  let (ignoreCase, text) := splitMark text.toList
  let tokens ← tokens? ignoreCase (text.length + 1) text
  match ← tokens.foldlM build [⟨none, [], if ignoreCase then [caseMark] else []⟩] with
  | [group] =>
    let whole := group.whole
    if whole.depth ≤ nestLimit && Layout.fits whole.shape then some ⟨whole.shape⟩ else none
  | _ => none

end ModuleLoader.Pattern
