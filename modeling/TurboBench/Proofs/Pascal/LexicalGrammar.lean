import TurboBench.Proofs.Pascal.Spelling

/-!
# The lexical grammar

What a stretch of source text is, said without reading it character by character. A segment is one
blank, one comment or one lexeme, and which of them a text is depends on what stands behind it: a
word, a numeral or a symbol is the longest one that begins where it begins (`IsLongest`), a
comment to the end of the line ends where the line does, and a string ends where no further piece
of it follows. So every judgment here is about a text in front of a rest.

Text that is no lexeme of the language has rules of its own, one for each `Flaw`. Two rules follow
the lexer where the customary description of the language is silent. The three characters `(*)` are
a whole comment, since the star that opens it may also be the one that closes it. And an exponent
belongs to a numeral only with its digits, so `1e` is a numeral in front of a word.

`Row ss rest` says that segments follow each other in front of a rest.
-/

set_option autoImplicit false

namespace TurboBench.Pascal

open TurboBench.Text (isBlank)

/-! ## The longest text of a kind -/

/-- The text in front of `rest` is of the kind `P`, and no longer text of that kind begins there. -/
structure IsLongest (P : List Char → Prop) (rest text : List Char) : Prop where
  kind : P text
  longest : ∀ other, other <+: text ++ rest → P other → other.length ≤ text.length

/-! ## Comments -/

/-- The three ways in which a text opens a comment. -/
def OpensComment (cs : List Char) : Prop :=
  ∃ tail, cs = '{' :: tail ∨ cs = '(' :: '*' :: tail ∨ cs = '/' :: '/' :: tail

/-- The comments in front of `rest`. -/
inductive IsComment (rest : List Char) : List Char → Prop
  | braces {body : List Char} (h : '}' ∉ body) : IsComment rest ('{' :: (body ++ ['}']))
  | stars {body : List Char} (h : ¬ ['*', ')'] <:+: '*' :: body) :
      IsComment rest ('(' :: '*' :: (body ++ ['*', ')']))
  | oneStar : IsComment rest ['(', '*', ')']
  | line {body : List Char} (h : '\n' ∉ body) (hrest : ∀ c ∈ rest.head?, c = '\n') :
      IsComment rest ('/' :: '/' :: body)

/-- The texts that open a comment and never close it. -/
inductive IsOpenComment : List Char → Prop
  | braces {body : List Char} (h : '}' ∉ body) : IsOpenComment ('{' :: body)
  | stars {body : List Char} (h : ¬ ['*', ')'] <:+: '*' :: body) :
      IsOpenComment ('(' :: '*' :: body)

/-! ## Words, numerals and symbols -/

/-- A letter with letters and digits behind it. -/
def IsWord (cs : List Char) : Prop :=
  ∃ c tail, cs = c :: tail ∧ isLetter c = true ∧ ∀ d ∈ tail, isWordPart d = true

/-- A point with digits behind it. -/
def IsFraction (cs : List Char) : Prop :=
  ∃ ds, cs = '.' :: ds ∧ IsDigits ds

/-- A mark for the exponent, perhaps a sign, and digits. -/
def IsExponent (cs : List Char) : Prop :=
  ∃ mark sign ds, cs = mark :: (sign ++ ds) ∧ (mark = 'e' ∨ mark = 'E')
    ∧ (sign = [] ∨ sign = ['+'] ∨ sign = ['-']) ∧ IsDigits ds

/-- Digits, perhaps a fraction, and perhaps an exponent. -/
def IsNumeral (cs : List Char) : Prop :=
  ∃ whole places scale, cs = whole ++ (places ++ scale) ∧ IsDigits whole
    ∧ (places = [] ∨ IsFraction places) ∧ (scale = [] ∨ IsExponent scale)

/-- The spelling of a symbol. -/
def IsSymbol (cs : List Char) : Prop :=
  ∃ m : Symbol, m.text.toList = cs

/-! ## Strings -/

/-- What stands between the apostrophes of a quoted run, and the characters it denotes. -/
inductive QuotedAs : List Char → List Char → Prop
  | nil : QuotedAs [] []
  | doubled {inside value : List Char} (h : QuotedAs inside value) :
      QuotedAs ('\'' :: '\'' :: inside) ('\'' :: value)
  | plain {c : Char} {inside value : List Char} (hquote : c ≠ '\'') (hnewline : c ≠ '\n')
      (h : QuotedAs inside value) : QuotedAs (c :: inside) (c :: value)

/-- A row of pieces of a string in front of `rest`, and the characters it denotes. -/
inductive PiecesAs (rest : List Char) : List Char → List Char → Prop
  | nil : PiecesAs rest [] []
  | quoted {inside value text more : List Char} (hinside : QuotedAs inside value)
      (hnext : ∀ c ∈ (text ++ rest).head?, c ≠ '\'') (h : PiecesAs rest text more) :
      PiecesAs rest ('\'' :: (inside ++ '\'' :: text)) (value ++ more)
  | code {digits text more : List Char} {c : Char} (hdigits : ∀ d ∈ digits, d.isDigit = true)
      (hcode : characterOfCode? digits = some c)
      (hnext : ∀ d ∈ (text ++ rest).head?, d.isDigit = false) (h : PiecesAs rest text more) :
      PiecesAs rest ('#' :: (digits ++ text)) (c :: more)

/-! ## Lexemes and segments -/

/-- The text in front of `rest` is written for a lexeme. -/
inductive IsLexeme (rest : List Char) : List Char → Lexeme → Prop
  | keyword {text : List Char} {k : Keyword} (h : IsLongest IsWord rest text)
      (hk : k.text.toList = text.map Char.toLower) : IsLexeme rest text (.keyword k)
  | identifier {text : List Char} (h : IsLongest IsWord rest text)
      (hk : ∀ k : Keyword, k.text.toList ≠ text.map Char.toLower) :
      IsLexeme rest text (.identifier (String.ofList text))
  | integer {text : List Char} (h : IsLongest IsNumeral rest text) (hdigits : IsDigits text) :
      IsLexeme rest text (.integer (String.ofList text))
  | real {text : List Char} (h : IsLongest IsNumeral rest text) (hdigits : ¬ IsDigits text) :
      IsLexeme rest text (.real (String.ofList text))
  | symbol {m : Symbol} (h : IsLongest IsSymbol rest m.text.toList)
      (hopen : ¬ OpensComment (m.text.toList ++ rest)) :
      IsLexeme rest m.text.toList (.symbol m)
  | string {text value : List Char} (h : PiecesAs rest text value) (hne : text ≠ [])
      (hstop : ∀ c ∈ rest.head?, c ≠ '\'' ∧ c ≠ '#') :
      IsLexeme rest text (.string (String.ofList value))
  | openComment {text : List Char} (h : IsOpenComment text) (hrest : rest = []) :
      IsLexeme rest text (.flaw .openComment)
  | openString {before inside value shown : List Char}
      (hbefore : PiecesAs ('\'' :: (inside ++ rest)) before value) (hinside : QuotedAs inside shown)
      (hrest : ∀ c ∈ rest.head?, c = '\n') :
      IsLexeme rest (before ++ '\'' :: inside) (.flaw .openString)
  | characterCode {before digits value : List Char}
      (hbefore : PiecesAs ('#' :: (digits ++ rest)) before value)
      (hdigits : ∀ d ∈ digits, d.isDigit = true) (hcode : characterOfCode? digits = none)
      (hrest : ∀ d ∈ rest.head?, d.isDigit = false) :
      IsLexeme rest (before ++ '#' :: digits) (.flaw .characterCode)
  | character {c : Char} (hblank : isBlank c = false) (hletter : isLetter c = false)
      (hdigit : c.isDigit = false) (hmark : c ∉ ['{', '\'', '#']) (hsymbol : ¬ IsSymbol [c]) :
      IsLexeme rest [c] (.flaw (.character c))

/-- The segments that may stand in front of `rest`. -/
inductive Segment.Stands (rest : List Char) : Segment → Prop
  | blank {c : Char} (h : isBlank c = true) : Stands rest ⟨[c], none⟩
  | comment {text : List Char} (h : IsComment rest text) : Stands rest ⟨text, none⟩
  | lexeme {text : List Char} {l : Lexeme} (h : IsLexeme rest text l) :
      Stands rest ⟨text, some l⟩

/-- The text of a row of segments. -/
def rowText (ss : List Segment) : List Char :=
  ss.flatMap (·.text)

/-- The segments stand one behind the other in front of `rest`. -/
def Row : List Segment → List Char → Prop
  | [], _ => True
  | s :: ss, rest => s.Stands (rowText ss ++ rest) ∧ Row ss rest

@[simp] theorem rowText_nil : rowText [] = [] := rfl

@[simp] theorem rowText_cons (s : Segment) (ss : List Segment) :
    rowText (s :: ss) = s.text ++ rowText ss := rfl

theorem rowText_append (ss ts : List Segment) : rowText (ss ++ ts) = rowText ss ++ rowText ts :=
  List.flatMap_append

theorem rowText_segments (source : List Char) : rowText (segments source) = source :=
  flatten_segments source

/-- A row of segments in front of another row. -/
theorem row_append {ss ts : List Segment} {rest : List Char} :
    Row (ss ++ ts) rest ↔ Row ss (rowText ts ++ rest) ∧ Row ts rest := by
  induction ss with
  | nil => simp [Row]
  | cons s ss ih =>
    rw [List.cons_append, Row, Row, ih, rowText_append, List.append_assoc, and_assoc]

end TurboBench.Pascal
