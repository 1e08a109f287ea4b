import TurboBench.Pascal.Word

/-!
Tokens of Pascal source text: the lexemes the language is written in, each with the line it stands
on, and the stream of them that a source amounts to.

A numeral keeps its digits as written, because its value is a matter of the parser, which may
refuse it. Text that is no lexeme of the language becomes a token as well, so that a report can
name it and its line.
-/

namespace TurboBench.Pascal

/-- Ways in which a stretch of source fails to be a lexeme. -/
inductive Flaw where
  /-- A comment that is never closed. -/
  | openComment
  /-- A quoted string that the line ends in. -/
  | openString
  /-- A character code without digits, or above 255. -/
  | characterCode
  /-- A character that the language does not use. -/
  | character (c : Char)
  deriving DecidableEq, Repr

/-- How a flaw is named in a report. -/
def Flaw.text : Flaw → String
  | openComment => "unterminated comment"
  | openString => "unterminated string"
  | characterCode => "#"
  | character c => String.ofList [c]

/-- The lexemes. Identifiers keep their letters as written, strings are decoded. -/
inductive Lexeme where
  | keyword (word : Keyword)
  | identifier (name : String)
  | integer (digits : String)
  | real (numeral : String)
  | string (value : String)
  | symbol (mark : Symbol)
  | flaw (cause : Flaw)
  deriving DecidableEq, Repr

namespace Lexeme

/-- The class of a lexeme. -/
def kind : Lexeme → String
  | keyword _ => "keyword"
  | identifier _ => "identifier"
  | integer _ => "integer"
  | real _ => "real"
  | string _ => "string"
  | symbol _ => "operator"
  | flaw _ => "error"

/-- The text of a lexeme as a report shows it. -/
def text : Lexeme → String
  | keyword w => w.text
  | identifier n => n
  | integer d => d
  | real n => n
  | string s => s
  | symbol m => m.text
  | flaw c => c.text

end Lexeme

/-- A lexeme and the line it starts on. -/
structure Token where
  lexeme : Lexeme
  line : Nat
  deriving DecidableEq, Repr

/-- The tokens of a source, and the line on which the source ends. -/
structure TokenStream where
  tokens : List Token
  endLine : Nat
  deriving DecidableEq, Repr

end TurboBench.Pascal
