/-!
The fixed vocabulary of the Pascal subset: its reserved words and its symbols, each with its
spelling.

A spelling determines its word, and reading a spelling back is a search through the vocabulary, so
the two directions cannot disagree. Reserved words are spelled here in small letters; the lexer
folds the letters of a word before it looks it up.
-/

namespace TurboBench.Pascal

/-- The reserved words. -/
inductive Keyword where
  | program | const | var_ | begin_ | end_ | if_ | then_ | else_ | while_ | do_ | for_ | to_
  | downto | repeat_ | until_ | case_ | of | write | writeln | read | readln | div | mod | and
  | or | not | true_ | false_ | integer | real | boolean | char | string
  deriving DecidableEq, Repr, Inhabited

namespace Keyword

/-- The spelling of a reserved word. -/
def text : Keyword → String
  | program => "program"
  | const => "const"
  | var_ => "var"
  | begin_ => "begin"
  | end_ => "end"
  | if_ => "if"
  | then_ => "then"
  | else_ => "else"
  | while_ => "while"
  | do_ => "do"
  | for_ => "for"
  | to_ => "to"
  | downto => "downto"
  | repeat_ => "repeat"
  | until_ => "until"
  | case_ => "case"
  | of => "of"
  | write => "write"
  | writeln => "writeln"
  | read => "read"
  | readln => "readln"
  | div => "div"
  | mod => "mod"
  | and => "and"
  | or => "or"
  | not => "not"
  | true_ => "true"
  | false_ => "false"
  | integer => "integer"
  | real => "real"
  | boolean => "boolean"
  | char => "char"
  | string => "string"

/-- All reserved words. -/
def all : List Keyword :=
  [program, const, var_, begin_, end_, if_, then_, else_, while_, do_, for_, to_, downto, repeat_,
    until_, case_, of, write, writeln, read, readln, div, mod, and, or, not, true_, false_,
    integer, real, boolean, char, string]

/-- The reserved word with the given spelling. -/
def ofText? (s : String) : Option Keyword :=
  all.find? (·.text == s)

theorem mem_all (k : Keyword) : k ∈ all := by
  cases k <;> decide

/-- Every reserved word is found under its spelling. -/
@[simp] theorem ofText?_text (k : Keyword) : ofText? k.text = some k := by
  cases k <;> decide

/-- No two reserved words share a spelling. -/
theorem text_injective {k l : Keyword} (h : k.text = l.text) : k = l := by
  have hk := ofText?_text k
  rw [h, ofText?_text] at hk
  exact (Option.some.inj hk).symm

/-- What is found under a spelling has that spelling. -/
theorem text_of_ofText? {s : String} {k : Keyword} (h : ofText? s = some k) : k.text = s := by
  simpa using List.find?_some h

end Keyword

/-- The operators and punctuation marks. -/
inductive Symbol where
  | assign | notEqual | atMost | atLeast | plus | minus | star | slash | equal | less | greater
  | openParen | closeParen | openBracket | closeBracket | comma | semicolon | colon | dot
  deriving DecidableEq, Repr, Inhabited

namespace Symbol

/-- The spelling of a symbol. -/
def text : Symbol → String
  | assign => ":="
  | notEqual => "<>"
  | atMost => "<="
  | atLeast => ">="
  | plus => "+"
  | minus => "-"
  | star => "*"
  | slash => "/"
  | equal => "="
  | less => "<"
  | greater => ">"
  | openParen => "("
  | closeParen => ")"
  | openBracket => "["
  | closeBracket => "]"
  | comma => ","
  | semicolon => ";"
  | colon => ":"
  | dot => "."

/-- The symbol that two characters spell together. -/
def ofPair? : Char → Char → Option Symbol
  | ':', '=' => some assign
  | '<', '>' => some notEqual
  | '<', '=' => some atMost
  | '>', '=' => some atLeast
  | _, _ => none

/-- The symbol that one character spells. -/
def ofChar? : Char → Option Symbol
  | '+' => some plus
  | '-' => some minus
  | '*' => some star
  | '/' => some slash
  | '=' => some equal
  | '<' => some less
  | '>' => some greater
  | '(' => some openParen
  | ')' => some closeParen
  | '[' => some openBracket
  | ']' => some closeBracket
  | ',' => some comma
  | ';' => some semicolon
  | ':' => some colon
  | '.' => some dot
  | _ => none

theorem text_of_ofPair? {a b : Char} {s : Symbol} (h : ofPair? a b = some s) :
    s.text = String.ofList [a, b] := by
  unfold ofPair? at h
  split at h <;> simp_all <;> (subst h; decide)

theorem text_of_ofChar? {a : Char} {s : Symbol} (h : ofChar? a = some s) :
    s.text = String.ofList [a] := by
  unfold ofChar? at h
  split at h <;> simp_all <;> (subst h; decide)

end Symbol

end TurboBench.Pascal
