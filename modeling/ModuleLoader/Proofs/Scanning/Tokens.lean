import ModuleLoader.DependencyScan
import ModuleLoader.Proofs.Spans
import Mathlib.Data.List.Infix

/-! Source text as a sequence of tokens: comments, strings, words and single characters. Each token reaches
as far as it can, and so every text is split into tokens in exactly one way. -/
namespace ModuleLoader.DependencyScan

/-- What source text is made of. Comments in blocks and strings may lack their end. A word does not begin with a
digit; digits in front of it stand by themselves. -/
inductive Token where
  | lineComment (body : List Char)
  | blockComment (body : List Char) (closed : Bool)
  | string (quote : Char) (body : List Char) (closed : Bool)
  | word (name : List Char)
  | other (c : Char)
deriving DecidableEq

/-- The mark that ends a comment in a block. -/
def blockEnd : List Char := ['*', '/']

/-- What can stand between two quotes: a backslash takes the character behind it along, and no other quote
occurs. -/
inductive Quoted (quote : Char) : List Char → Prop where
  | nil : Quoted quote []
  | plain {c : Char} {body : List Char} (inside : c ≠ quote) (bare : c ≠ '\\') (more : Quoted quote body) :
      Quoted quote (c :: body)
  | escaped {c : Char} {body : List Char} (more : Quoted quote body) : Quoted quote ('\\' :: c :: body)

/-- What is between a quote and the next one that counts, or else the end of the text, where a backslash may
be the last character. -/
def Behind (quote : Char) (body : List Char) : Bool → List Char → Prop
  | true, _ => Quoted quote body
  | false, rest => (Quoted quote body ∨ ∃ inner, Quoted quote inner ∧ body = inner ++ ['\\']) ∧ rest = []

namespace Token

/-- How a token is written. -/
def text : Token → List Char
  | lineComment body => '/' :: '/' :: body
  | blockComment body closed => '/' :: '*' :: (body ++ if closed then blockEnd else [])
  | string quote body closed => quote :: (body ++ if closed then [quote] else [])
  | word name => name
  | other c => [c]

/-- May a token stand in front of the rest of a text? It ends as soon as it can, if it has an end, and it
is as long as possible otherwise. -/
def Fits : Token → List Char → Prop
  | lineComment body, rest => '\n' ∉ body ∧ ∀ c ∈ rest.head?, c = '\n'
  | blockComment body closed, rest => ¬ blockEnd <:+: body ∧ (closed = false → rest = [])
  | string quote body closed, rest => isQuote quote = true ∧ Behind quote body closed rest
  | word name, rest =>
    (∃ c more, name = c :: more ∧ startsWord c = true ∧ ∀ d ∈ more, continuesWord d = true) ∧
      ∀ c ∈ rest.head?, continuesWord c = false
  | other c, rest =>
    isQuote c = false ∧ startsWord c = false ∧ (c = '/' → ∀ d ∈ rest.head?, d ≠ '/' ∧ d ≠ '*')

end Token

/-- The text is split into the tokens. -/
inductive Splits : List Char → List Token → Prop where
  | nil : Splits [] []
  | cons {t : Token} {rest : List Char} {tokens : List Token} (fits : t.Fits rest)
      (more : Splits rest tokens) : Splits (t.text ++ rest) (t :: tokens)

/-! The tokens of a text, one after the other. -/

/-- A comment in a block without its first mark, whether it is closed, and what is behind it. -/
def blockBody : List Char → List Char × Bool × List Char
  | [] => ([], false, [])
  | c :: rest =>
    if c = '*' ∧ rest.head? = some '/' then ([], true, rest.tail)
    else (c :: (blockBody rest).1, (blockBody rest).2)

/-- A string without its first quote, whether it is closed, and what is behind it. -/
def stringBody (quote : Char) : List Char → List Char × Bool × List Char
  | [] => ([], false, [])
  | [c] => if c = quote then ([], true, []) else ([c], false, [])
  | c :: d :: rest =>
    if c = '\\' then (c :: d :: (stringBody quote rest).1, (stringBody quote rest).2)
    else if c = quote then ([], true, d :: rest)
    else (c :: (stringBody quote (d :: rest)).1, (stringBody quote (d :: rest)).2)

/-- The first token and what is behind it. -/
def next : List Char → Option (Token × List Char)
  | [] => none
  | c :: rest =>
    some <|
      if c = '/' ∧ rest.head? = some '/' then
        (.lineComment (rest.tail.takeWhile (· != '\n')), rest.tail.dropWhile (· != '\n'))
      else if c = '/' ∧ rest.head? = some '*' then
        let read := blockBody rest.tail
        (.blockComment read.1 read.2.1, read.2.2)
      else if isQuote c then
        let read := stringBody c rest
        (.string c read.1 read.2.1, read.2.2)
      else if startsWord c then
        (.word (c :: rest.takeWhile continuesWord), rest.dropWhile continuesWord)
      else (.other c, rest)

theorem blockBody_sound (text : List Char) :
    text = (blockBody text).1 ++ (if (blockBody text).2.1 then blockEnd else []) ++ (blockBody text).2.2 ∧
      ¬ blockEnd <:+: (blockBody text).1 ∧ ((blockBody text).2.1 = false → (blockBody text).2.2 = []) := by
  induction text with
  | nil => simp [blockBody, blockEnd]
  | cons c text ih =>
    obtain ⟨written, free, last⟩ := ih
    rw [blockBody]
    split
    · rename_i ends
      obtain ⟨tail, rfl⟩ : ∃ tail, text = '/' :: tail := List.head?_eq_some_iff.mp ends.2
      simp [ends.1, blockEnd]
    · rename_i goes
      refine ⟨by simpa using written, ?_, last⟩
      rw [List.infix_cons_iff, not_or]
      refine ⟨fun begins => goes ?_, free⟩
      obtain ⟨tail, here⟩ := begins
      simp only [blockEnd, List.cons_append, List.nil_append, List.cons.injEq] at here
      refine ⟨here.1.symm, ?_⟩
      rw [written, ← here.2]
      rfl

/-- A comment is read up to its first end mark. -/
theorem blockBody_complete {body rest : List Char} {closed : Bool} (free : ¬ blockEnd <:+: body)
    (last : closed = false → rest = []) :
    blockBody (body ++ (if closed then blockEnd else []) ++ rest) = (body, closed, rest) := by
  induction body with
  | nil =>
    cases closed with
    | false =>
      obtain rfl := last rfl
      rfl
    | true => simp [blockBody, blockEnd]
  | cons c body ih =>
    rw [List.infix_cons_iff, not_or] at free
    rw [List.cons_append, List.cons_append, blockBody, if_neg, ih free.2]
    rintro ⟨rfl, slash⟩
    cases body with
    | nil => cases closed <;> simp_all [blockEnd]
    | cons d body =>
      obtain rfl : d = '/' := by simpa using slash
      exact free.1 ⟨body, rfl⟩

theorem stringBody_escaped (quote c : Char) (text : List Char) :
    stringBody quote ('\\' :: c :: text) =
      ('\\' :: c :: (stringBody quote text).1, (stringBody quote text).2) := by
  rw [stringBody, if_pos rfl]

theorem stringBody_bare {quote c : Char} (bare : c ≠ '\\') (text : List Char) :
    stringBody quote (c :: text) =
      if c = quote then ([], true, text) else (c :: (stringBody quote text).1, (stringBody quote text).2) := by
  cases text with
  | nil => simp [stringBody]
  | cons d text => rw [stringBody, if_neg bare]

/-- What is read first can be put in front of what is behind a quote. -/
theorem Behind.append {quote : Char} {body rest : List Char} {closed : Bool}
    (behind : Behind quote body closed rest) (first : List Char)
    (step : ∀ inner, Quoted quote inner → Quoted quote (first ++ inner)) :
    Behind quote (first ++ body) closed rest := by
  cases closed with
  | true => exact step body behind
  | false =>
    obtain ⟨quoted | ⟨inner, quoted, rfl⟩, last⟩ := behind
    · exact ⟨.inl (step body quoted), last⟩
    · exact ⟨.inr ⟨first ++ inner, step inner quoted, by rw [List.append_assoc]⟩, last⟩

theorem stringBody_sound (quote : Char) (text : List Char) :
    text = (stringBody quote text).1 ++ (if (stringBody quote text).2.1 then [quote] else []) ++
        (stringBody quote text).2.2 ∧
      Behind quote (stringBody quote text).1 (stringBody quote text).2.1 (stringBody quote text).2.2 := by
  fun_induction stringBody quote text with
  | case1 => exact ⟨rfl, .inl .nil, rfl⟩
  | case2 => exact ⟨rfl, .nil⟩
  | case3 c inside =>
    refine ⟨rfl, ?_, rfl⟩
    by_cases slash : c = '\\'
    · exact .inr ⟨[], .nil, by rw [slash]; rfl⟩
    · exact .inl (.plain inside slash .nil)
  | case4 d text ih =>
    obtain ⟨written, behind⟩ := ih
    exact ⟨by simpa using written, behind.append ['\\', d] fun _ => .escaped⟩
  | case5 d text bare => exact ⟨rfl, .nil⟩
  | case6 c d text bare inside ih =>
    obtain ⟨written, behind⟩ := ih
    exact ⟨by simpa using written, behind.append [c] fun _ => .plain inside bare⟩

/-- What can stand between quotes is read to its end. -/
theorem Quoted.stringBody_append {quote : Char} {body : List Char} (quoted : Quoted quote body)
    (tail : List Char) :
    stringBody quote (body ++ tail) = (body ++ (stringBody quote tail).1, (stringBody quote tail).2) := by
  induction quoted with
  | nil => rfl
  | plain inside bare more ih => rw [List.cons_append, stringBody_bare bare, if_neg inside, ih, List.cons_append]
  | escaped more ih => simp only [List.cons_append, stringBody_escaped, ih]

/-- Where no backslash hides it, the quote does not occur. -/
theorem Quoted.not_mem {quote : Char} {body : List Char} (quoted : Quoted quote body) (bare : '\\' ∉ body) :
    quote ∉ body := by
  induction quoted with
  | nil => exact List.not_mem_nil
  | plain inside _ _ ih =>
    rw [List.mem_cons, not_or] at bare ⊢
    exact ⟨inside.symm, ih bare.2⟩
  | escaped => exact absurd (List.mem_cons_self ..) bare

/-- A string is read up to the first quote that no backslash hides. -/
theorem stringBody_complete {quote : Char} (bare : quote ≠ '\\') {body rest : List Char} {closed : Bool}
    (behind : Behind quote body closed rest) :
    stringBody quote (body ++ (if closed then [quote] else []) ++ rest) = (body, closed, rest) := by
  cases closed with
  | true =>
    have quoted : Quoted quote body := behind
    rw [if_pos rfl, List.append_assoc, quoted.stringBody_append, List.singleton_append, stringBody_bare bare,
      if_pos rfl, List.append_nil]
  | false =>
    obtain ⟨quoted | ⟨inner, quoted, rfl⟩, rfl⟩ := behind
    · simpa [stringBody] using quoted.stringBody_append []
    · have last : stringBody quote ['\\'] = (['\\'], false, []) := by simp [stringBody, bare.symm]
      simpa [last] using quoted.stringBody_append ['\\']

theorem isQuote_bare {quote : Char} (opens : isQuote quote = true) : quote ≠ '\\' := by
  rintro rfl
  exact absurd opens (by decide)

/-- The first token fits in front of what is behind it. -/
theorem next_sound {text rest : List Char} {t : Token} (read : next text = some (t, rest)) :
    text = t.text ++ rest ∧ t.Fits rest := by
  cases text with
  | nil => cases read
  | cons c text =>
    rw [next, Option.some.injEq] at read
    split at read
    · rename_i line
      obtain ⟨rfl, tail, rfl⟩ : c = '/' ∧ ∃ tail, text = '/' :: tail :=
        ⟨line.1, List.head?_eq_some_iff.mp line.2⟩
      cases read
      exact ⟨by simp [Token.text], Text.not_mem_takeWhile_ne '\n' tail, Text.head?_dropWhile_ne '\n' tail⟩
    · rename_i noLine
      split at read
      · rename_i block
        obtain ⟨rfl, tail, rfl⟩ : c = '/' ∧ ∃ tail, text = '*' :: tail :=
          ⟨block.1, List.head?_eq_some_iff.mp block.2⟩
        cases read
        obtain ⟨written, fits⟩ := blockBody_sound tail
        exact ⟨congrArg ('/' :: '*' :: ·) written, fits⟩
      · rename_i noBlock
        split at read
        · rename_i opens
          cases read
          obtain ⟨written, behind⟩ := stringBody_sound c text
          exact ⟨congrArg (c :: ·) written, opens, behind⟩
        · rename_i noString
          split at read
          · rename_i starts
            cases read
            refine ⟨by simp [Token.text], ⟨c, _, rfl, starts, fun d => List.mem_takeWhile_imp⟩, ?_⟩
            exact Text.head?_dropWhile
          · rename_i noWord
            cases read
            refine ⟨rfl, by simpa using noString, by simpa using noWord, fun slash d first => ⟨?_, ?_⟩⟩
            · rintro rfl
              exact noLine ⟨slash, first⟩
            · rintro rfl
              exact noBlock ⟨slash, first⟩

/-- The first token is the only one that fits. -/
theorem next_complete {rest : List Char} {t : Token} (fits : t.Fits rest) :
    next (t.text ++ rest) = some (t, rest) := by
  cases t with
  | lineComment body =>
    have line := Text.span_ne fits.1 fits.2
    simp [next, Token.text, line]
  | blockComment body closed =>
    have read := blockBody_complete fits.1 fits.2
    rw [List.append_assoc] at read
    simp [next, Token.text, read]
  | string quote body closed =>
    obtain ⟨opens, behind⟩ := fits
    have slash : quote ≠ '/' := by
      rintro rfl
      exact absurd opens (by decide)
    have read := stringBody_complete (isQuote_bare opens) behind
    rw [List.append_assoc] at read
    simp [next, Token.text, slash, opens, read]
  | word name =>
    obtain ⟨⟨c, more, rfl, starts, inside⟩, stops⟩ := fits
    have slash : c ≠ '/' := by
      rintro rfl
      exact absurd starts (by decide)
    have quote : isQuote c = false := by
      rw [Bool.eq_false_iff]
      intro opens
      simp only [isQuote, Bool.or_eq_true, beq_iff_eq] at opens
      rcases opens with (rfl | rfl) | rfl <;> exact absurd starts (by decide)
    obtain ⟨taken, left⟩ := Text.span_append inside stops
    simp [next, Token.text, slash, quote, starts, taken, left]
  | other c =>
    obtain ⟨quote, starts, alone⟩ := fits
    have noLine : ¬ (c = '/' ∧ rest.head? = some '/') := fun line => (alone line.1 _ line.2).1 rfl
    have noBlock : ¬ (c = '/' ∧ rest.head? = some '*') := fun block => (alone block.1 _ block.2).2 rfl
    simp [next, Token.text, noLine, noBlock, quote, starts]

theorem Token.text_ne_nil {t : Token} {rest : List Char} (fits : t.Fits rest) : t.text ≠ [] := by
  cases t with
  | word name =>
    obtain ⟨⟨c, more, rfl, -⟩, -⟩ := fits
    exact List.cons_ne_nil c more
  | lineComment | blockComment | string | other => simp [text]

theorem length_next_lt {text rest : List Char} {t : Token} (read : next text = some (t, rest)) :
    rest.length < text.length := by
  obtain ⟨written, fits⟩ := next_sound read
  have := List.length_pos_iff.mpr (Token.text_ne_nil fits)
  rw [written, List.length_append]
  omega

/-- All tokens of a text. -/
def tokens (text : List Char) : List Token :=
  match _h : next text with
  | none => []
  | some (t, rest) => t :: tokens rest
termination_by text.length
decreasing_by exact length_next_lt ‹next text = some (t, rest)›

theorem tokens_nil : tokens [] = [] := by
  rw [tokens]
  rfl

theorem tokens_append {t : Token} {rest : List Char} (fits : t.Fits rest) :
    tokens (t.text ++ rest) = t :: tokens rest := by
  rw [tokens]
  split
  · rename_i none
    rw [next_complete fits] at none
    cases none
  · rename_i some
    rw [next_complete fits] at some
    cases some
    rfl

theorem splits_tokens (text : List Char) : Splits text (tokens text) := by
  fun_induction tokens text with
  | case1 text none =>
    cases text with
    | nil => exact .nil
    | cons => cases none
  | case2 text t rest read ih =>
    obtain ⟨rfl, fits⟩ := next_sound read
    exact .cons fits ih

/-- There is one way to split a text. -/
theorem splits_iff {text : List Char} {ts : List Token} : Splits text ts ↔ ts = tokens text := by
  constructor
  · intro splits
    induction splits with
    | nil => rw [tokens_nil]
    | cons fits more ih => rw [tokens_append fits, ih]
  · rintro rfl
    exact splits_tokens text

end ModuleLoader.DependencyScan
