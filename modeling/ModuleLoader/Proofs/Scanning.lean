import ModuleLoader.Proofs.Scanning.Tokens

/-! The dependencies of source text, read off its tokens. The scanner reads a text once and looks for the
argument of a call as soon as it has read the name. It finds what a second reading finds that starts from the
tokens of the whole text and keeps the strings that stand in a call. -/
namespace ModuleLoader.DependencyScan

namespace Token

/-- The blanks that may stand between the parts of a call. -/
def isBlank : Token → Bool
  | other c => Text.isAsciiBlank c
  | _ => false

/-- What the name of a dependency may hold. -/
def inName (c : Char) : Bool := c != ')' && !Text.isAsciiBlank c && c != '\\'

/-- What a string can name as the argument of a call: it is in single or double quotes, closed and not empty,
and it holds no closing parenthesis, no blank and no backslash. -/
def literal? : Token → Option (List Char)
  | string quote body true =>
    if quote ≠ '\x60' ∧ body ≠ [] ∧ body.all inName then some body
    else none
  | _ => none

end Token

/-- Behind these tokens, the nearest of them first, a call can begin: they end in `require`, which is no
member of anything. -/
def called (before : List Token) : Bool :=
  match before.dropWhile Token.isBlank with
  | .word name :: earlier => name = "require".toList && earlier.head? ≠ some (.other '.')
  | _ => false

/-- Behind these tokens, the nearest of them first, the argument of a call can stand. -/
def opened (before : List Token) : Bool :=
  match before.dropWhile Token.isBlank with
  | .other '(' :: earlier => called earlier
  | _ => false

/-- In front of these tokens the argument of a call can stand. -/
def closed (after : List Token) : Bool :=
  (after.dropWhile Token.isBlank).head? = some (.other ')')

/-- What is named by the strings that stand in a call, in order. The tokens before are given with the nearest
of them first. -/
def literals (before : List Token) : List Token → List (List Char)
  | [] => []
  | t :: after =>
    (if opened before && closed after then t.literal?.toList else []) ++ literals (t :: before) after

/-! The same strings, found when the name of the call is read. -/

/-- The argument that the tokens behind an opening parenthesis begin with. -/
def argumentInside (ts : List Token) : Option (List Char) :=
  match ts.dropWhile Token.isBlank with
  | t :: after => if closed after then t.literal? else none
  | [] => none

/-- The argument that the tokens behind the name of a call begin with. -/
def argumentBehind (ts : List Token) : Option (List Char) :=
  match ts.dropWhile Token.isBlank with
  | .other '(' :: after => argumentInside after
  | _ => none

/-- The arguments of the calls, found at their names. -/
def arguments (afterDot : Bool) : List Token → List (List Char)
  | [] => []
  | t :: ts =>
    (if t = .word "require".toList ∧ !afterDot then (argumentBehind ts).toList else []) ++
      arguments (t = .other '.') ts

/-- The argument of the call that has begun in the tokens before, if it is completed. -/
def awaited (before ts : List Token) : Option (List Char) :=
  if opened before then argumentInside ts else if called before then argumentBehind ts else none

/-! One more token. -/

theorem called_cons (t : Token) (before : List Token) :
    called (t :: before) =
      if t.isBlank then called before
      else decide (t = .word "require".toList) && decide (before.head? ≠ some (.other '.')) := by
  cases dark : t.isBlank with
  | true => rw [called, List.dropWhile_cons_of_pos dark]; rfl
  | false =>
    rw [called, List.dropWhile_cons_of_neg (by simp [dark]), if_neg Bool.false_ne_true]
    cases t with
    | word name =>
      rw [Bool.eq_iff_iff]
      simp only [Bool.and_eq_true, decide_eq_true_eq, Token.word.injEq]
    | lineComment | blockComment | string | other => rw [decide_eq_false (Token.noConfusion ·), Bool.false_and]

theorem opened_cons (t : Token) (before : List Token) :
    opened (t :: before) = if t.isBlank then opened before else decide (t = .other '(') && called before := by
  cases dark : t.isBlank with
  | true => rw [opened, List.dropWhile_cons_of_pos dark]; rfl
  | false =>
    rw [opened, List.dropWhile_cons_of_neg (by simp [dark])]
    split <;> simp_all

theorem argumentInside_cons (t : Token) (ts : List Token) :
    argumentInside (t :: ts) =
      if t.isBlank then argumentInside ts else if closed ts then t.literal? else none := by
  cases dark : t.isBlank with
  | true => rw [argumentInside, List.dropWhile_cons_of_pos dark]; rfl
  | false => rw [argumentInside, List.dropWhile_cons_of_neg (by simp [dark])]; rfl

theorem argumentBehind_cons (t : Token) (ts : List Token) :
    argumentBehind (t :: ts) =
      if t.isBlank then argumentBehind ts else if t = .other '(' then argumentInside ts else none := by
  cases dark : t.isBlank with
  | true => rw [argumentBehind, List.dropWhile_cons_of_pos dark]; rfl
  | false =>
    rw [argumentBehind, List.dropWhile_cons_of_neg (by simp [dark])]
    split <;> simp_all

/-- The name of a call is not its opening parenthesis. -/
theorem called_eq_false_of_opened {before : List Token} (open_ : opened before = true) :
    called before = false := by
  induction before with
  | nil => rfl
  | cons t before ih =>
    rw [opened_cons] at open_
    rw [called_cons]
    cases dark : t.isBlank with
    | true => simp_all
    | false =>
      obtain rfl : t = .other '(' := by simp_all
      rfl

/-- With one more token the argument of a call is passed, or is still to come, or the token names a call. -/
theorem awaited_cons (before : List Token) (t : Token) (ts : List Token) :
    (if opened before && closed ts then t.literal?.toList else []) ++ (awaited (t :: before) ts).toList =
      (awaited before (t :: ts)).toList ++
        if t = .word "require".toList ∧ !decide (before.head? = some (.other '.')) then (argumentBehind ts).toList
        else [] := by
  rw [awaited, awaited, called_cons, opened_cons, argumentInside_cons, argumentBehind_cons]
  generalize "require".toList = call
  by_cases name : t = .word call
  · subst name
    by_cases dot : before.head? = some (.other '.') <;> cases opens : opened before <;> cases closed ts <;>
      simp [dot, Token.isBlank, Token.literal?]
  · cases blank : t.isBlank with
    | true =>
      obtain ⟨c, rfl⟩ : ∃ c, t = .other c := by cases t <;> first | exact ⟨_, rfl⟩ | cases blank
      simp [Token.literal?]
    | false =>
      cases opens : opened before with
      | true => cases closed ts <;> simp [name, called_eq_false_of_opened opens]
      | false => by_cases paren : t = .other '(' <;> simp [name, paren]

/-- The second reading finds each string when it comes to it. By then a call has begun whose name has been
read before. -/
theorem literals_eq (before ts : List Token) :
    literals before ts = (awaited before ts).toList ++ arguments (before.head? = some (.other '.')) ts := by
  induction ts generalizing before with
  | nil => simp [literals, arguments, awaited, argumentInside, argumentBehind]
  | cons t ts ih =>
    rw [literals, ih, arguments, ← List.append_assoc, ← List.append_assoc, awaited_cons, List.head?_cons]
    simp only [Option.some.injEq]

/-! What the scanner reads, in tokens. -/

theorem afterBlock_eq (text : List Char) : afterBlock text = (blockBody text).2.2 := by
  fun_induction afterBlock text with
  | case1 => rfl
  | case2 c => simp [blockBody]
  | case3 c d rest ends => rw [blockBody, if_pos ⟨ends.1, by rw [ends.2]; rfl⟩]; rfl
  | case4 c d rest goes ih =>
    rw [blockBody, if_neg (by simpa using goes), ih]

theorem afterString_eq (quote : Char) (text : List Char) : afterString quote text = (stringBody quote text).2.2 := by
  fun_induction afterString quote text with
  | case1 => rfl
  | case2 c => rw [stringBody]; split <;> rfl
  | case3 d rest ih => rw [stringBody_escaped, ih]
  | case4 d rest bare => rw [stringBody_bare bare, if_pos rfl]
  | case5 c d rest bare inside ih => rw [stringBody_bare bare, if_neg inside, ih]

/-- The scanner reads the first token, and the argument of a call with its name. -/
theorem calls_next {text rest : List Char} {t : Token} (read : next text = some (t, rest)) (afterDot : Bool) :
    calls afterDot text =
      if t = .word "require".toList ∧ !afterDot then
        match argument? rest with
        | some (body, behind) => body :: calls false behind
        | none => calls false rest
      else calls (t = .other '.') rest := by
  cases text with
  | nil => cases read
  | cons c text =>
    rw [next, Option.some.injEq] at read
    rw [calls]
    split at read
    · rename_i line
      obtain ⟨tail, rfl⟩ : ∃ tail, text = '/' :: tail := List.head?_eq_some_iff.mp line.2
      cases read
      rw [if_pos line]
      simp
    · rename_i noLine
      rw [if_neg noLine]
      split at read
      · rename_i block
        cases read
        rw [if_pos block, List.drop_one, afterBlock_eq]
        simp
      · rename_i noBlock
        rw [if_neg noBlock]
        split at read
        · rename_i opens
          cases read
          rw [if_pos opens, afterString_eq]
          simp
        · rename_i noString
          rw [if_neg noString]
          split at read
          · rename_i starts
            cases read
            rw [if_pos starts]
            simp only [Token.word.injEq, reduceCtorEq, decide_false]
            by_cases name : c :: text.takeWhile continuesWord = "require".toList ∧ (!afterDot) = true
            · rw [if_pos name, if_pos name]
              split <;> rename_i found <;> rw [found]
            · rw [if_neg name, if_neg name]
          · rename_i noWord
            cases read
            rw [if_neg noWord]
            simp [beq_eq_decide]

/-! The argument of a call, in characters and in tokens. -/

theorem expect_eq_some_iff {c : Char} {text rest : List Char} : expect c text = some rest ↔ text = c :: rest := by
  cases text with
  | nil => simp [expect]
  | cons d text => simp [expect]

/-- The scanner takes a string for the argument of a call just if it could name something. -/
theorem inLiteral_iff {quote c : Char} :
    inLiteral quote c = true ↔ c ≠ quote ∧ Token.inName c = true := by
  simp [inLiteral, Token.inName, and_assoc]

theorem literal?_eq_some_iff {text body after : List Char} :
    literal? text = some (body, after) ↔ ∃ quote, (quote = '"' ∨ quote = '\x27') ∧ body ≠ [] ∧
      (∀ c ∈ body, inLiteral quote c = true) ∧ text = quote :: (body ++ quote :: after) := by
  cases text with
  | nil => simp [literal?]
  | cons quote rest =>
    simp only [literal?, Option.ite_none_right_eq_some, Option.map_eq_some_iff, expect_eq_some_iff,
      Prod.mk.injEq, List.cons.injEq]
    constructor
    · rintro ⟨⟨quoted, filled⟩, _, ends, rfl, rfl⟩
      refine ⟨quote, quoted, filled, fun c => List.mem_takeWhile_imp, rfl, ?_⟩
      rw [← ends, List.takeWhile_append_dropWhile]
    · rintro ⟨_, quoted, filled, inside, rfl, rfl⟩
      obtain ⟨taken, left⟩ :=
        Text.span_append inside (show ∀ c ∈ (quote :: after).head?, inLiteral quote c = false by simp [inLiteral])
      rw [taken, left]
      exact ⟨⟨quoted, filled⟩, after, rfl, rfl, rfl⟩

theorem argument?_eq_some_iff {text body behind : List Char} :
    argument? text = some (body, behind) ↔ ∃ inside after, skipBlanks text = '(' :: inside ∧
      literal? (skipBlanks inside) = some (body, after) ∧ skipBlanks after = ')' :: behind := by
  simp only [argument?, Option.bind_eq_bind, Option.bind_eq_some_iff, Option.pure_def, Option.some.injEq,
    Prod.mk.injEq, Prod.exists, expect_eq_some_iff]
  constructor
  · rintro ⟨inside, opens, _, after, read, _, closes, rfl, rfl⟩
    exact ⟨inside, after, opens, read, closes⟩
  · rintro ⟨inside, after, opens, read, closes⟩
    exact ⟨inside, opens, body, after, read, behind, closes, rfl, rfl⟩

theorem tokens_other {c : Char} (quote : isQuote c = false) (starts : startsWord c = false) (slash : c ≠ '/')
    (text : List Char) : tokens (c :: text) = .other c :: tokens text :=
  tokens_append (show (Token.other c).Fits text from ⟨quote, starts, fun same => absurd same slash⟩)

theorem tokens_eq_cons {text : List Char} {t : Token} {ts : List Token} (split : tokens text = t :: ts) :
    ∃ rest, text = t.text ++ rest ∧ t.Fits rest ∧ tokens rest = ts := by
  have splits := splits_tokens text
  rw [split] at splits
  cases splits with
  | @cons _ rest _ fits more => exact ⟨rest, rfl, fits, (splits_iff.mp more).symm⟩

theorem tokens_blank {c : Char} (blank : Text.isAsciiBlank c = true) (text : List Char) :
    tokens (c :: text) = .other c :: tokens text := by
  simp only [Text.isAsciiBlank, Bool.or_eq_true, beq_iff_eq] at blank
  rcases blank with (((rfl | rfl) | rfl) | rfl) | rfl <;> exact tokens_other (by decide) (by decide) (by decide) text

/-- Blanks are passed over in tokens as in characters. -/
theorem tokens_skipBlanks (text : List Char) :
    tokens (skipBlanks text) = (tokens text).dropWhile Token.isBlank := by
  induction text with
  | nil => rw [skipBlanks, List.dropWhile_nil, tokens_nil, List.dropWhile_nil]
  | cons c text ih =>
    cases blank : Text.isAsciiBlank c with
    | true =>
      rw [skipBlanks, List.dropWhile_cons_of_pos blank, tokens_blank blank,
        List.dropWhile_cons_of_pos (show Token.isBlank (.other c) = true from blank)]
      exact ih
    | false =>
      rw [skipBlanks, List.dropWhile_cons_of_neg (by simp [blank])]
      cases split : tokens (c :: text) with
      | nil => rfl
      | cons t ts =>
        obtain ⟨rest, written, -, -⟩ := tokens_eq_cons split
        rw [List.dropWhile_cons_of_neg]
        cases t with
        | other d =>
          obtain rfl : c = d := (List.cons.inj written).1
          simp [Token.isBlank, blank]
        | lineComment | blockComment | string | word => simp [Token.isBlank]

theorem arguments_quiet {t : Token} (word : t ≠ .word "require".toList) (dot : t ≠ .other '.') (afterDot : Bool)
    (ts : List Token) : arguments afterDot (t :: ts) = arguments false ts := by
  rw [arguments, if_neg fun call => word call.1, decide_eq_false dot, List.nil_append]

theorem arguments_skipBlanks (ts : List Token) : arguments false (ts.dropWhile Token.isBlank) = arguments false ts := by
  induction ts with
  | nil => rfl
  | cons t ts ih =>
    cases blank : t.isBlank with
    | true =>
      rw [List.dropWhile_cons_of_pos blank, ih, arguments_quiet]
      all_goals
        rintro rfl
        exact absurd blank (by decide)
    | false => rw [List.dropWhile_cons_of_neg (by simp [blank])]

/-- The string that the scanner reads is a token, and names the same. -/
theorem tokens_literal {quote : Char} {body : List Char} (quoted : quote = '"' ∨ quote = '\x27') (filled : body ≠ [])
    (inside : ∀ c ∈ body, inLiteral quote c = true) (after : List Char) :
    tokens (quote :: (body ++ quote :: after)) = .string quote body true :: tokens after ∧
      (Token.string quote body true).literal? = some body := by
  have fits : (Token.string quote body true).Fits after := by
    refine ⟨by rcases quoted with rfl | rfl <;> decide, ?_⟩
    clear filled
    induction body with
    | nil => exact .nil
    | cons c body ih =>
      obtain ⟨other, named⟩ := inLiteral_iff.mp (inside c (List.mem_cons_self ..))
      exact .plain other (by rintro rfl; exact absurd named (by decide)) (ih fun d member => inside d (List.mem_cons_of_mem _ member))
  refine ⟨by simpa [Token.text] using tokens_append fits, if_pos ⟨?_, filled, List.all_eq_true.mpr fun c member => ?_⟩⟩
  · rcases quoted with rfl | rfl <;> decide
  · exact (inLiteral_iff.mp (inside c member)).2

/-- A token that names something is read by the scanner. -/
theorem literal?_of_token {t : Token} {body after : List Char} (fits : t.Fits after)
    (named : t.literal? = some body) : literal? (t.text ++ after) = some (body, after) := by
  cases t with
  | string quote inner closed =>
    cases closed with
    | false => cases named
    | true =>
      simp only [Token.literal?, Option.ite_none_right_eq_some, Option.some.injEq, List.all_eq_true] at named
      obtain ⟨⟨apart, filled, inside⟩, rfl⟩ := named
      obtain ⟨opens, quoted⟩ := fits
      refine literal?_eq_some_iff.mpr ⟨quote, ?_, filled, fun c member => ?_, by simp [Token.text]⟩
      · simpa [isQuote, apart] using opens
      · refine inLiteral_iff.mpr ⟨?_, inside c member⟩
        rintro rfl
        exact Quoted.not_mem quoted (fun slash => absurd (inside _ slash) (by decide)) member
  | lineComment | blockComment | word | other => cases named

/-- An argument that the scanner reads is there in the tokens, and no other call begins in it. -/
theorem argumentBehind_of_argument? {text body behind : List Char} (read : argument? text = some (body, behind)) :
    argumentBehind (tokens text) = some body ∧ arguments false (tokens text) = arguments false (tokens behind) := by
  obtain ⟨inside, after, opens, literal, closes⟩ := argument?_eq_some_iff.mp read
  obtain ⟨quote, quoted, filled, held, written⟩ := literal?_eq_some_iff.mp literal
  obtain ⟨split, named⟩ := tokens_literal quoted filled held after
  have outer : (tokens text).dropWhile Token.isBlank = .other '(' :: tokens inside := by
    rw [← tokens_skipBlanks, opens, tokens_other (by decide) (by decide) (by decide)]
  have inner : (tokens inside).dropWhile Token.isBlank = .string quote body true :: tokens after := by
    rw [← tokens_skipBlanks, written, split]
  have last : (tokens after).dropWhile Token.isBlank = .other ')' :: tokens behind := by
    rw [← tokens_skipBlanks, closes, tokens_other (by decide) (by decide) (by decide)]
  constructor
  · simp only [argumentBehind, outer, argumentInside, inner, closed, last, List.head?_cons, decide_true, if_true,
      named]
  · rw [← arguments_skipBlanks, outer, arguments_quiet (by decide) (by decide), ← arguments_skipBlanks, inner,
      arguments_quiet (Token.noConfusion ·) (Token.noConfusion ·), ← arguments_skipBlanks, last,
      arguments_quiet (by decide) (by decide)]

/-- An argument that is there in the tokens is read by the scanner. -/
theorem argument?_of_argumentBehind {text body : List Char} (found : argumentBehind (tokens text) = some body) :
    ∃ behind, argument? text = some (body, behind) := by
  unfold argumentBehind at found
  split at found
  · rename_i ts outer
    rw [← tokens_skipBlanks] at outer
    obtain ⟨inside, opens, -, rfl⟩ := tokens_eq_cons outer
    unfold argumentInside at found
    split at found
    · rename_i t ts inner
      rw [← tokens_skipBlanks] at inner
      obtain ⟨after, written, fits, rfl⟩ := tokens_eq_cons inner
      obtain ⟨closes, named⟩ := Option.ite_none_right_eq_some.mp found
      rw [closed, ← tokens_skipBlanks, decide_eq_true_iff] at closes
      obtain ⟨ts, last⟩ := List.head?_eq_some_iff.mp closes
      obtain ⟨behind, ends, -, -⟩ := tokens_eq_cons last
      exact ⟨behind, argument?_eq_some_iff.mpr
        ⟨inside, after, opens, written ▸ literal?_of_token fits named, ends⟩⟩
    · cases found
  · cases found

/-- The scanner finds what is found in the tokens. -/
theorem calls_eq_arguments (afterDot : Bool) (text : List Char) :
    calls afterDot text = arguments afterDot (tokens text) := by
  induction length : text.length using Nat.strong_induction_on generalizing text afterDot with
  | _ n ih =>
    subst length
    cases read : next text with
    | none =>
      cases text with
      | nil => rw [calls, tokens_nil, arguments]
      | cons => cases read
    | some first =>
      obtain ⟨t, rest⟩ := first
      have shorter := length_next_lt read
      obtain ⟨rfl, fits⟩ := next_sound read
      rw [calls_next read, tokens_append fits, arguments]
      by_cases call : t = .word "require".toList ∧ !afterDot
      · rw [if_pos call, if_pos call]
        obtain rfl := call.1
        have later := ih _ shorter false rest rfl
        cases argument : argument? rest with
        | none =>
          have missing : argumentBehind (tokens rest) = none := by
            rw [Option.eq_none_iff_forall_ne_some]
            intro body found
            obtain ⟨behind, read⟩ := argument?_of_argumentBehind found
            rw [argument] at read
            cases read
          simpa [missing] using later
        | some found =>
          obtain ⟨body, behind⟩ := found
          obtain ⟨there, same⟩ := argumentBehind_of_argument? argument
          have last := ih _ ((length_argument?_lt argument).trans shorter) false behind rfl
          simp [there, same, last]
      · rw [if_neg call, if_neg call, List.nil_append]
        exact ih _ shorter _ rest rfl

/-- A text is split into tokens in just one way. The dependencies are what is named by the strings that stand
in a call, each of them once, where it comes first. -/
theorem dependencies_eq_literals (source : String) :
    ∃ ts, (∀ others, Splits source.toList others ↔ others = ts) ∧
      dependencies source = ((literals [] ts).map String.ofList).eraseDups := by
  refine ⟨tokens source.toList, fun _ => splits_iff, ?_⟩
  rw [dependencies, calls_eq_arguments, literals_eq]
  rfl

end ModuleLoader.DependencyScan
