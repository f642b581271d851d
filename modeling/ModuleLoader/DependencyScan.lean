import ModuleLoader.Text.Blank

/-! The dependencies that source text names itself, in calls of `require` with one string literal.
The text is read once from the left; comments and other strings are passed over. -/
namespace ModuleLoader.DependencyScan

/-- Words are ASCII, and a dollar sign is one of their letters. -/
def startsWord (c : Char) : Bool := c.isAlpha || c == '_' || c == '$'

def continuesWord (c : Char) : Bool := c.isAlphanum || c == '_' || c == '$'

/-- Double quote, apostrophe and grave accent open a string. -/
def isQuote (c : Char) : Bool := c == '"' || c == '\x27' || c == '\x60'

/-- The rest behind the closing mark of a block comment; nothing if it is not closed. -/
def afterBlock : List Char → List Char
  | [] => []
  | [_] => []
  | c :: d :: rest => if c = '*' ∧ d = '/' then rest else afterBlock (d :: rest)

/-- The rest behind the closing quote, a backslash hiding the character after it; nothing if the
string is not closed. -/
def afterString (quote : Char) : List Char → List Char
  | [] => []
  | [_] => []
  | c :: d :: rest =>
    if c = '\\' then afterString quote rest
    else if c = quote then d :: rest
    else afterString quote (d :: rest)

/-- Characters that a literal naming a dependency may hold. -/
def inLiteral (quote c : Char) : Bool :=
  !(c == quote || c == ')' || Text.isAsciiBlank c || c == '\\')

def skipBlanks (text : List Char) : List Char := text.dropWhile Text.isAsciiBlank

/-- The rest behind a given character, if the text starts with it. -/
def expect (c : Char) : List Char → Option (List Char)
  | [] => none
  | d :: rest => if d = c then some rest else none

/-- A literal in single or double quotes that is not empty, and the rest behind it. -/
def literal? : List Char → Option (List Char × List Char)
  | [] => none
  | quote :: rest =>
    let body := rest.takeWhile (inLiteral quote)
    if (quote = '"' ∨ quote = '\x27') ∧ body ≠ [] then
      (expect quote (rest.dropWhile (inLiteral quote))).map fun after => (body, after)
    else none

/-- One literal in parentheses, with blanks anywhere between, and the rest behind it. -/
def argument? (text : List Char) : Option (List Char × List Char) := do
  let opened ← expect '(' (skipBlanks text)
  let (body, after) ← literal? (skipBlanks opened)
  let rest ← expect ')' (skipBlanks after)
  return (body, rest)

/-! Each part leaves no more text than it was given. -/

theorem length_dropWhile_le (p : Char → Bool) (text : List Char) :
    (text.dropWhile p).length ≤ text.length := (List.dropWhile_sublist p).length_le

theorem length_afterBlock_le (text : List Char) : (afterBlock text).length ≤ text.length := by
  fun_induction afterBlock text <;> simp_all <;> omega

theorem length_afterString_le (quote : Char) (text : List Char) :
    (afterString quote text).length ≤ text.length := by
  fun_induction afterString quote text <;> simp_all <;> omega

theorem length_expect_lt {c : Char} {text rest : List Char} (h : expect c text = some rest) :
    rest.length < text.length := by
  unfold expect at h
  split at h
  · simp at h
  · split at h
    · obtain rfl := by simpa using h
      simp
    · simp at h

theorem length_literal?_lt {text body rest : List Char} (h : literal? text = some (body, rest)) :
    rest.length < text.length := by
  unfold literal? at h
  split at h
  · simp at h
  · rename_i quote tail
    dsimp only at h
    split at h
    · obtain ⟨after, he, heq⟩ := Option.map_eq_some_iff.mp h
      obtain ⟨-, rfl⟩ := by simpa using heq
      have := length_expect_lt he
      have := length_dropWhile_le (inLiteral quote) tail
      simp; omega
    · simp at h

theorem length_argument?_lt {text body rest : List Char} (h : argument? text = some (body, rest)) :
    rest.length < text.length := by
  simp only [argument?, Option.bind_eq_bind, Option.bind_eq_some_iff, Option.pure_def,
    Option.some.injEq, Prod.mk.injEq, Prod.exists] at h
  obtain ⟨opened, ho, body', after, hl, rest', hc, rfl, rfl⟩ := h
  have := length_expect_lt ho
  have := length_literal?_lt hl
  have := length_expect_lt hc
  have := length_dropWhile_le Text.isAsciiBlank text
  have := length_dropWhile_le Text.isAsciiBlank opened
  have := length_dropWhile_le Text.isAsciiBlank after
  simp only [skipBlanks] at *
  omega

/-- The literals of all calls, in order. A member of something else that happens to be called
`require` does not count, and after a failed call reading goes on right behind its name. -/
def calls (afterDot : Bool) (text : List Char) : List (List Char) :=
  match text with
  | [] => []
  | c :: rest =>
    if c = '/' ∧ rest.head? = some '/' then calls false (rest.dropWhile (· != '\n'))
    else if c = '/' ∧ rest.head? = some '*' then calls false (afterBlock (rest.drop 1))
    else if isQuote c then calls false (afterString c rest)
    else if startsWord c then
      let after := rest.dropWhile continuesWord
      if c :: rest.takeWhile continuesWord = "require".toList ∧ !afterDot then
        match _h : argument? after with
        | some (body, behind) => body :: calls false behind
        | none => calls false after
      else calls false after
    else calls (c == '.') rest
termination_by text.length
decreasing_by
  · have := length_dropWhile_le (· != '\n') rest
    simp; omega
  · have := length_afterBlock_le (rest.drop 1)
    simp at *; omega
  · have := length_afterString_le c rest
    simp; omega
  · have := length_argument?_lt ‹argument? _ = some _›
    have : after.length ≤ rest.length := length_dropWhile_le continuesWord rest
    simp; omega
  · exact Nat.lt_succ_of_le (length_dropWhile_le continuesWord rest)
  · exact Nat.lt_succ_of_le (length_dropWhile_le continuesWord rest)
  · simp

/-- Every dependency once, at its first appearance. -/
def dependencies (source : String) : List String :=
  ((calls false source.toList).map String.ofList).eraseDups

end ModuleLoader.DependencyScan
