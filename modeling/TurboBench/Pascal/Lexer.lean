import TurboBench.Text.Blank
import TurboBench.Pascal.Token

/-!
The lexer: source text is cut into segments, and the tokens are those of the segments that are
lexemes.

A segment is one white-space character, one comment, or one lexeme. `segments` loses nothing and
invents nothing: `flatten_segments` says that the texts of the segments, put together, are the
source. The line of a token is therefore one more than the number of newlines in the segments
before it, which is how `TokenStream.ofSegments` counts.

Letters and digits are those of ASCII; white space is that of Unicode.
-/

namespace TurboBench.Pascal

open TurboBench.Text (isBlank)

/-- A character that may begin a word. -/
def isLetter (c : Char) : Bool :=
  c.isAlpha || c == '_'

/-- A character that may stand in a word. -/
def isWordPart (c : Char) : Bool :=
  isLetter c || c.isDigit

/-- A stretch of source text, with its lexeme if it has one. -/
structure Segment where
  text : List Char
  lexeme : Option Lexeme
  deriving DecidableEq, Repr

/-! ## Comments -/

/-- The text up to and including the first closing brace, and the rest. -/
def throughBrace : List Char → Option (List Char × List Char)
  | [] => none
  | '}' :: cs => some (['}'], cs)
  | c :: cs => (throughBrace cs).map fun (taken, rest) => (c :: taken, rest)

/-- The text up to and including the first star with a parenthesis, and the rest. -/
def throughStar : List Char → Option (List Char × List Char)
  | [] => none
  | '*' :: ')' :: cs => some (['*', ')'], cs)
  | c :: cs => (throughStar cs).map fun (taken, rest) => (c :: taken, rest)

/-- A comment whose opening is `opening` and whose remainder was looked for in `cs`. Without an
end it takes the whole source, and counts as a flaw. -/
def comment (opening cs : List Char) (found : Option (List Char × List Char)) :
    Segment × List Char :=
  match found with
  | some (taken, rest) => (⟨opening ++ taken, none⟩, rest)
  | none => (⟨opening ++ cs, some (.flaw .openComment)⟩, [])

/-! ## Words and numerals -/

/-- The lexeme of a word: a reserved word in whatever case, or an identifier. -/
def wordLexeme (w : List Char) : Lexeme :=
  match Keyword.ofText? (String.ofList (w.map Char.toLower)) with
  | some k => .keyword k
  | none => .identifier (String.ofList w)

/-- A point with at least one digit after it, and the rest. -/
def fraction : List Char → List Char × List Char
  | '.' :: d :: cs =>
    if d.isDigit then ('.' :: d :: cs.takeWhile Char.isDigit, cs.dropWhile Char.isDigit)
    else ([], '.' :: d :: cs)
  | cs => ([], cs)

/-- An exponent mark, an optional sign and at least one digit, and the rest. -/
def exponent : List Char → List Char × List Char
  | e :: s :: d :: cs =>
    -- A mark without digits behind it belongs to the next word.
    if (e == 'e' || e == 'E') && s.isDigit then
      (e :: s :: (d :: cs).takeWhile Char.isDigit, (d :: cs).dropWhile Char.isDigit)
    else if (e == 'e' || e == 'E') && (s == '+' || s == '-') && d.isDigit then
      (e :: s :: d :: cs.takeWhile Char.isDigit, cs.dropWhile Char.isDigit)
    else ([], e :: s :: d :: cs)
  | [e, d] => if (e == 'e' || e == 'E') && d.isDigit then ([e, d], []) else ([], [e, d])
  | cs => ([], cs)

/-- The numeral at the start of a text that begins with a digit. -/
def numeral (cs : List Char) : Segment × List Char :=
  let whole := cs.takeWhile Char.isDigit
  let f := fraction (cs.dropWhile Char.isDigit)
  let x := exponent f.2
  let text := whole ++ f.1 ++ x.1
  let written := String.ofList text
  (⟨text, some (if f.1.isEmpty && x.1.isEmpty then .integer written else .real written)⟩, x.2)

/-! ## Strings

A string is a row of pieces without anything between them. A piece is a quoted run, in which a
doubled apostrophe stands for one, or the code of a character. -/

/-- How the reading of a string ended. -/
inductive StringEnd where
  | closed
  | flawed (cause : Flaw)
  deriving DecidableEq, Repr

/-- The part of a source that was read as a string: the characters it denotes, its text, the rest
of the source. -/
structure StringScan where
  value : List Char
  text : List Char
  rest : List Char
  ending : StringEnd
  deriving DecidableEq, Repr

/-- The scan with text before it that denotes `value`. -/
def StringScan.after (text value : List Char) (s : StringScan) : StringScan :=
  { s with value := value ++ s.value, text := text ++ s.text }

/-- A quoted run after its opening apostrophe, up to and including the closing one. A newline
ends it without closing it. -/
def quotedRun : List Char → StringScan
  | [] => ⟨[], [], [], .flawed .openString⟩
  | '\n' :: cs => ⟨[], [], '\n' :: cs, .flawed .openString⟩
  | '\'' :: '\'' :: cs => (quotedRun cs).after ['\'', '\''] ['\'']
  | '\'' :: cs => ⟨[], ['\''], cs, .closed⟩
  | c :: cs => (quotedRun cs).after [c] [c]

/-- The character that a run of digits is the code of. -/
def characterOfCode? (digits : List Char) : Option Char :=
  let code := digits.foldl (fun n c => 10 * n + (c.toNat - '0'.toNat)) 0
  if digits.isEmpty || 255 < code then none else some (Char.ofNat code)

theorem quotedRun_rest_le (cs : List Char) : (quotedRun cs).rest.length ≤ cs.length := by
  fun_induction quotedRun cs <;> simp_all [StringScan.after] <;> omega

/-- The longest row of pieces at the start of a text. -/
def stringPieces : List Char → StringScan
  | '\'' :: cs =>
    let run := quotedRun cs
    -- A string that is not closed ends there, whatever pieces came before.
    if run.ending = .closed then
      (stringPieces run.rest).after ('\'' :: run.text) run.value
    else run.after ['\''] []
  | '#' :: cs =>
    let digits := cs.takeWhile Char.isDigit
    let rest := cs.dropWhile Char.isDigit
    match characterOfCode? digits with
    | some c => (stringPieces rest).after ('#' :: digits) [c]
    | none => ⟨[], '#' :: digits, rest, .flawed .characterCode⟩
  | cs => ⟨[], [], cs, .closed⟩
termination_by cs => cs.length
decreasing_by
  · have := quotedRun_rest_le cs
    simp only [List.length_cons]
    omega
  · have := (List.dropWhile_sublist (l := cs) Char.isDigit).length_le
    simp only [List.length_cons]
    omega

/-- The string at the start of a text that begins with an apostrophe or a number sign. -/
def stringLiteral (cs : List Char) : Segment × List Char :=
  let s := stringPieces cs
  match s.ending with
  | .closed => (⟨s.text, some (.string (String.ofList s.value))⟩, s.rest)
  | .flawed cause => (⟨s.text, some (.flaw cause)⟩, s.rest)

/-! ## Segments -/

/-- A symbol of two characters where there is one, else of one character; a character that is no
symbol is a flaw. -/
def symbolLexeme (c : Char) (cs : List Char) : Segment × List Char :=
  match cs with
  | d :: rest =>
    match Symbol.ofPair? c d with
    | some s => (⟨[c, d], some (.symbol s)⟩, rest)
    | none =>
      (⟨[c], some ((Symbol.ofChar? c).elim (.flaw (.character c)) .symbol)⟩, d :: rest)
  | [] => (⟨[c], some ((Symbol.ofChar? c).elim (.flaw (.character c)) .symbol)⟩, [])

/-- The first segment of the text `c :: cs`, and the rest. -/
def firstSegment (c : Char) (cs : List Char) : Segment × List Char :=
  if isBlank c then (⟨[c], none⟩, cs)
  else if c == '{' then comment [c] cs (throughBrace cs)
  else if c == '(' && cs.head? == some '*' then comment [c] cs (throughStar cs)
  else if c == '/' && cs.head? == some '/' then
    (⟨c :: cs.takeWhile (· != '\n'), none⟩, cs.dropWhile (· != '\n'))
  else if isLetter c then
    let w := c :: cs.takeWhile isWordPart
    (⟨w, some (wordLexeme w)⟩, cs.dropWhile isWordPart)
  else if c.isDigit then numeral (c :: cs)
  else if c == '\'' || c == '#' then stringLiteral (c :: cs)
  else symbolLexeme c cs

/-! ## Nothing is lost

Every reader hands back the text it took and the rest; the two together are what it was given. -/

/-- A comment in braces and what is behind it are what was there. -/
theorem throughBrace_append {cs taken rest : List Char} (h : throughBrace cs = some (taken, rest)) :
    taken ++ rest = cs := by
  fun_induction throughBrace cs generalizing taken with
  | case1 => simp at h
  | case2 cs => simp at h; obtain ⟨rfl, rfl⟩ := h; rfl
  | case3 c cs _ ih =>
    obtain ⟨⟨t, r⟩, hr, h⟩ := Option.map_eq_some_iff.1 h
    simp only [Prod.mk.injEq] at h
    obtain ⟨rfl, rfl⟩ := h
    simp [ih hr]

/-- A comment in parentheses and what is behind it are what was there. -/
theorem throughStar_append {cs taken rest : List Char} (h : throughStar cs = some (taken, rest)) :
    taken ++ rest = cs := by
  fun_induction throughStar cs generalizing taken with
  | case1 => simp at h
  | case2 cs => simp at h; obtain ⟨rfl, rfl⟩ := h; rfl
  | case3 c cs _ ih =>
    obtain ⟨⟨t, r⟩, hr, h⟩ := Option.map_eq_some_iff.1 h
    simp only [Prod.mk.injEq] at h
    obtain ⟨rfl, rfl⟩ := h
    simp [ih hr]

/-- A comment, closed or not, and what is behind it are what was there. -/
theorem comment_append {opening cs : List Char} {found : Option (List Char × List Char)}
    (h : ∀ taken rest, found = some (taken, rest) → taken ++ rest = cs) :
    (comment opening cs found).1.text ++ (comment opening cs found).2 = opening ++ cs := by
  unfold comment
  split
  · simp [h _ _ rfl]
  · simp

/-- The fraction of a numeral, if there is one, and what is behind it are what was there. -/
theorem fraction_append (cs : List Char) : (fraction cs).1 ++ (fraction cs).2 = cs := by
  unfold fraction
  split
  · split <;> simp
  · simp

/-- The exponent of a numeral, if there is one, and what is behind it are what was there. -/
theorem exponent_append (cs : List Char) : (exponent cs).1 ++ (exponent cs).2 = cs := by
  unfold exponent
  split
  · split
    · simp
    · split <;> simp
  · split <;> simp
  · simp

theorem numeral_append (cs : List Char) : (numeral cs).1.text ++ (numeral cs).2 = cs := by
  simp only [numeral, List.append_assoc, exponent_append, fraction_append,
    List.takeWhile_append_dropWhile]

theorem quotedRun_append (cs : List Char) : (quotedRun cs).text ++ (quotedRun cs).rest = cs := by
  fun_induction quotedRun cs <;> simp_all [StringScan.after]

/-- The pieces of a string and what is behind them are what was there. -/
theorem stringPieces_append (cs : List Char) :
    (stringPieces cs).text ++ (stringPieces cs).rest = cs := by
  fun_induction stringPieces cs with
  | case1 cs run _ ih =>
    simp only [StringScan.after, List.append_assoc, ih]
    simp [run, quotedRun_append]
  | case2 cs run _ => simp [StringScan.after, run, quotedRun_append]
  | case3 cs digits rest c _ ih =>
    simp only [StringScan.after, List.append_assoc, ih]
    simp [digits, rest]
  | case4 cs digits rest _ => simp [digits, rest]
  | case5 => simp

theorem stringLiteral_append (cs : List Char) :
    (stringLiteral cs).1.text ++ (stringLiteral cs).2 = cs := by
  unfold stringLiteral
  simp only
  split <;> simp [stringPieces_append]

/-- A symbol, of one character or two, and what is behind it are what was there. -/
theorem symbolLexeme_append (c : Char) (cs : List Char) :
    (symbolLexeme c cs).1.text ++ (symbolLexeme c cs).2 = c :: cs := by
  unfold symbolLexeme
  split
  · split <;> simp
  · simp

/-- The first segment and the rest are the whole text. -/
theorem firstSegment_append (c : Char) (cs : List Char) :
    (firstSegment c cs).1.text ++ (firstSegment c cs).2 = c :: cs := by
  unfold firstSegment
  split
  · simp
  split
  · exact comment_append fun _ _ h => throughBrace_append h
  split
  · exact comment_append fun _ _ h => throughStar_append h
  split
  · simp
  split
  · simp
  split
  · exact numeral_append _
  split
  · exact stringLiteral_append _
  · exact symbolLexeme_append _ _

/-! ## Every segment takes a character -/

theorem numeral_text_ne_nil {c : Char} (h : c.isDigit = true) (cs : List Char) :
    (numeral (c :: cs)).1.text ≠ [] := by
  simp [numeral, h]

/-- A string takes its first character at least. -/
theorem stringLiteral_text_ne_nil {c : Char} (h : c = '\'' ∨ c = '#') (cs : List Char) :
    (stringLiteral (c :: cs)).1.text ≠ [] := by
  have key : (stringPieces (c :: cs)).text ≠ [] := by
    rcases h with rfl | rfl
    · rw [stringPieces]
      split <;> simp [StringScan.after]
    · rw [stringPieces]
      split <;> simp [StringScan.after]
  unfold stringLiteral
  simp only
  split <;> exact key

/-- Every segment takes a character at least. -/
theorem firstSegment_text_ne_nil (c : Char) (cs : List Char) :
    (firstSegment c cs).1.text ≠ [] := by
  unfold firstSegment
  split
  · simp
  split
  · unfold comment; split <;> simp
  split
  · unfold comment; split <;> simp
  split
  · simp
  split
  · simp
  split
  · rename_i h
    exact numeral_text_ne_nil h cs
  split
  · rename_i h
    exact stringLiteral_text_ne_nil (by simpa using h) cs
  · unfold symbolLexeme
    split
    · split <;> simp
    · simp

/-- What is behind the first segment is shorter than the text, so cutting comes to an end. -/
theorem firstSegment_rest_lt (c : Char) (cs : List Char) :
    (firstSegment c cs).2.length < (c :: cs).length := by
  have happ := congrArg List.length (firstSegment_append c cs)
  have hpos := List.length_pos_iff.2 (firstSegment_text_ne_nil c cs)
  simp only [List.length_append] at happ
  omega

/-! ## The whole source -/

/-- The segments of a source, in order. -/
def segments : List Char → List Segment
  | [] => []
  | c :: cs => (firstSegment c cs).1 :: segments (firstSegment c cs).2
termination_by cs => cs.length
decreasing_by exact firstSegment_rest_lt c cs

/-- The segments, put together, are the source. -/
theorem flatten_segments (cs : List Char) : (segments cs).flatMap (·.text) = cs := by
  fun_induction segments cs with
  | case1 => rfl
  | case2 c cs ih => rw [List.flatMap_cons, ih, firstSegment_append]

/-- The number of newlines in a text. -/
def newlines (cs : List Char) : Nat :=
  cs.count '\n'

/-- The tokens of a row of segments, the first of which starts on `line`. -/
def tokensFrom (line : Nat) : List Segment → List Token
  | [] => []
  | s :: ss =>
    let later := tokensFrom (line + newlines s.text) ss
    match s.lexeme with
    | some l => ⟨l, line⟩ :: later
    | none => later

/-- The tokens of a source text. -/
def tokenize (source : List Char) : TokenStream where
  tokens := tokensFrom 1 (segments source)
  endLine := 1 + newlines source

end TurboBench.Pascal
