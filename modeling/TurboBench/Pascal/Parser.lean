import TurboBench.Decimal.Numeral
import TurboBench.Pascal.Diagnostic
import TurboBench.Pascal.Syntax

/-!
The parser: from tokens to a syntax tree, or to the list of everything that is wrong.

A parser either yields a result or stops with one diagnostic; in both cases it hands on the state,
that is, the tokens that are left and the diagnostics collected so far. A statement list records
the diagnostic that stopped one of its statements, skips to the next place where a statement can
begin, and goes on, so that one compilation reports as much as it can. Problems with names are
recorded without stopping at all.

Statements, expressions and factors may open inside each other to a depth of `nestingLimit`. The
depth that is left is the argument on which `statement`, `expression` and `factor` recurse, so
the limit of the language is also what makes them terminate. A loop inside a level takes at least
one token per turn; the number of tokens that are left when it starts bounds its turns.
-/

namespace TurboBench.Pascal

/-- How deep statements, expressions and factors open inside each other. -/
def nestingLimit : Nat := 128

/-- The tokens still to be read, the line the source ends on, the diagnostics so far, and the
names declared so far. -/
structure ParserState where
  tokens : List Token
  endLine : Nat
  diagnostics : List Diagnostic
  declarations : List Declaration
  constants : List (String × Value)

/-- A parser: stops with a diagnostic or yields a result, and leaves a state either way. -/
abbrev Parse := EStateM Diagnostic ParserState

namespace ParserState

/-- The lexeme to be read next; `none` at the end of the source. -/
def next? (s : ParserState) : Option Lexeme :=
  s.tokens.head?.map (·.lexeme)

/-- The line of the token to be read next. -/
def line (s : ParserState) : Nat :=
  (s.tokens.head?.map (·.line)).getD s.endLine

/-- What a report says is found at the present place. -/
def found (s : ParserState) : Found :=
  match s.next? with
  | some l => .text l.text
  | none => .endOfFile

/-- The state after the next token, if there is one. -/
def advance (s : ParserState) : ParserState :=
  { s with tokens := s.tokens.tail }

/-- The state with one more diagnostic. -/
def report (s : ParserState) (d : Diagnostic) : ParserState :=
  { s with diagnostics := s.diagnostics ++ [d] }

/-- Whether a name is a constant. -/
def isConstant (s : ParserState) (key : String) : Bool :=
  (s.constants.lookup key).isSome

/-- Whether a name is a variable. -/
def isVariable (s : ParserState) (key : String) : Bool :=
  s.declarations.any (·.name == key)

/-- The state in which the name denotes the constant. -/
def setConstant (s : ParserState) (key : String) (value : Value) : ParserState :=
  if s.isConstant key then
    { s with constants := s.constants.map fun (k, v) => if k == key then (k, value) else (k, v) }
  else { s with constants := s.constants ++ [(key, value)] }

end ParserState

/-- After a report something is wrong for good. -/
theorem diagnostics_report_ne_nil {s : ParserState} {d : Diagnostic} :
    (s.report d).diagnostics ≠ [] := by
  simp [ParserState.report]

/-- A name as it is looked up: case does not matter. -/
def foldName (name : String) : String :=
  String.ofList (name.toList.map Char.toLower)

/-- An identifier as written, and its line. -/
structure Name where
  text : String
  line : Nat

/-- The name as it is looked up. -/
def Name.key (n : Name) : String :=
  foldName n.text

/-! ## Single tokens -/

namespace Parse

/-- Reads over the next token. -/
def advance : Parse Unit :=
  modify (·.advance)

/-- Records a problem and goes on. -/
def report (line : Nat) (problem : Problem) : Parse Unit :=
  modify (·.report ⟨line, problem⟩)

/-- Stops with a problem of the given line. -/
def stop {α : Type} (line : Nat) (problem : Problem) : Parse α :=
  throw ⟨line, problem⟩

/-- Stops because something else was wanted at the present place. -/
def unexpected {α : Type} (wanted : Wanted) : Parse α := do
  let s ← get
  stop s.line (.expected wanted s.found)

/-- Whether the given lexeme is next. -/
def atLexeme (l : Lexeme) : Parse Bool := do
  return (← get).next? == some l

/-- Whether the given symbol is next. -/
def atSymbol (m : Symbol) : Parse Bool :=
  atLexeme (.symbol m)

/-- Whether the given reserved word is next. -/
def atKeyword (w : Keyword) : Parse Bool :=
  atLexeme (.keyword w)

/-- Reads the given symbol if it is next, and tells whether it was. -/
def acceptSymbol (m : Symbol) : Parse Bool := do
  if ← atSymbol m then
    advance
    return true
  else return false

/-- Reads the given reserved word if it is next, and tells whether it was. -/
def acceptKeyword (w : Keyword) : Parse Bool := do
  if ← atKeyword w then
    advance
    return true
  else return false

/-- Reads the given symbol, which has to be next. -/
def expectSymbol (m : Symbol) : Parse Unit := do
  unless ← acceptSymbol m do unexpected (.symbol m)

/-- Reads the given reserved word, which has to be next. -/
def expectKeyword (w : Keyword) : Parse Unit := do
  unless ← acceptKeyword w do unexpected (.keyword w)

/-- Reads the given reserved word and what comes after it, if the word is next. -/
def afterKeyword? {α : Type} (w : Keyword) (p : Parse α) : Parse (Option α) := do
  if ← acceptKeyword w then return some (← p) else return none

/-- Reads the given symbol and what comes after it, if the symbol is next. -/
def afterSymbol? {α : Type} (m : Symbol) (p : Parse α) : Parse (Option α) := do
  if ← acceptSymbol m then return some (← p) else return none

/-- Reads an identifier, which has to be next. -/
def identifier : Parse Name := do
  let s ← get
  match s.next? with
  | some (.identifier text) =>
    advance
    return ⟨text, s.line⟩
  | _ => unexpected .identifier

/-! ## Repetition and recovery -/

/-- Takes turns as long as they yield something, at most `turns` of them. -/
def manyUpTo {α : Type} (turn : Parse (Option α)) : Nat → Parse (List α)
  | 0 => return []
  | n + 1 => do
    match ← turn with
    | none => return []
    | some a => return a :: (← manyUpTo turn n)

/-- Takes turns as long as they yield something. A turn that yields something reads at least one
token, so there are no more turns than tokens. -/
def many {α : Type} (turn : Parse (Option α)) : Parse (List α) := do
  manyUpTo turn (← get).tokens.length

/-- One or more items with commas between them. -/
def commaList {α : Type} (item : Parse α) : Parse (List α) := do
  let first ← item
  return first :: (← many (afterSymbol? .comma item))

/-- Whether a lexeme ends the skipping after a mistake: a semicolon, or a word that closes a
statement list. -/
def stopsSkipping : Lexeme → Bool
  | .symbol .semicolon | .keyword .end_ | .keyword .until_ | .keyword .else_ => true
  | _ => false

/-- Skips to the next place where a statement can begin or a statement list can end. -/
def synchronize : Parse Unit :=
  modify fun s => { s with tokens := s.tokens.dropWhile (!stopsSkipping ·.lexeme) }

/-- Runs a parser; if it stops, records why and skips to where parsing can go on. -/
def recovering {α : Type} (p : Parse α) : Parse (Option α) := fun s =>
  match p s with
  | .ok a s => .ok (some a) s
  | .error d s => synchronize.map (fun _ => none) (s.report d)

end Parse

open Parse

/-! ## Constants and types -/

/-- The value of an integer numeral, if it is in range. -/
def integerValue? (digits : String) : Option Int :=
  let n : Int := Decimal.natOfDigits digits.toList
  if n ≤ maxInteger then some n else none

/-- The value of a real numeral, if it is finite. -/
def realValue? (numeral : String) : Option Float :=
  let x := (Decimal.Numeral.ofText numeral.toList).toFloat
  if x.isFinite then some x else none

/-- The value of a numeral of the given line, which has to be in range. -/
def inRange {α : Type} (line : Nat) : Option α → Parse α
  | some a => return a
  | none => stop line .constantRange

/-- Reads an integer numeral, which has to be next. -/
def integerConstant : Parse Int := do
  let s ← get
  match s.next? with
  | some (.integer digits) =>
    advance
    inRange s.line (integerValue? digits)
  | _ => unexpected .integerConstant

/-- Reads the value of a constant: a number with an optional sign, a string, a truth value, or the
name of an earlier constant. A minus sign asks for a number. -/
def constantValue : Parse Value := do
  let negative ← acceptSymbol .minus
  unless negative do discard (acceptSymbol .plus)
  let s ← get
  match s.next? with
  | some (.integer digits) =>
    advance
    let n ← inRange s.line (integerValue? digits)
    return .integer (if negative then -n else n)
  | some (.real numeral) =>
    advance
    let x ← inRange s.line (realValue? numeral)
    return .real (if negative then -x else x)
  | next =>
    if negative then unexpected .numericConstant
    else match next with
      | some (.string text) =>
        advance
        return .text text
      | some (.keyword .true_) =>
        advance
        return .boolean true
      | some (.keyword .false_) =>
        advance
        return .boolean false
      | some (.identifier name) =>
        match s.constants.lookup (foldName name) with
        | some v =>
          advance
          return v
        | none => unexpected .constant
      | _ => unexpected .constant

/-- The type that a reserved word names. -/
def Keyword.type? : Keyword → Option PascalType
  | .integer => some .integer
  | .real => some .real
  | .boolean => some .boolean
  | .char => some .char
  | .string => some .string
  | _ => none

/-- Reads a type. A string may carry a length in brackets, which has no effect. An unknown name is
recorded and read as `integer`. -/
def typeName : Parse PascalType := do
  let s ← get
  match s.next? with
  | some (.keyword w) =>
    match w.type? with
    | some t =>
      advance
      if t = .string then
        if ← acceptSymbol .openBracket then
          discard integerConstant
          expectSymbol .closeBracket
      return t
    | none => unexpected .type
  | some (.identifier name) =>
    advance
    report s.line (.unknownType name)
    return .integer
  | _ => unexpected .type

/-! ## Declarations -/

/-- Records a name that is declared already, and tells whether it is new. -/
def declareNew (n : Name) : Parse Bool := do
  let s ← get
  if s.isVariable n.key || s.isConstant n.key then
    report n.line (.duplicate n.text)
    return false
  else return true

/-- Reads the declaration of one constant. -/
def constantDeclaration : Parse Unit := do
  let name ← identifier
  expectSymbol .equal
  let value ← constantValue
  expectSymbol .semicolon
  -- A name that is taken becomes a constant all the same; the program is refused anyway.
  discard (declareNew name)
  modify (·.setConstant name.key value)

/-- Declares a variable, unless the name is taken. -/
def declareVariable (type : PascalType) (n : Name) : Parse Unit := do
  if ← declareNew n then
    modify fun s => { s with declarations := s.declarations ++ [⟨n.key, type, n.line⟩] }

/-- Reads the declaration of variables of one type. -/
def variableDeclaration : Parse Unit := do
  let names ← commaList identifier
  expectSymbol .colon
  let type ← typeName
  expectSymbol .semicolon
  names.forM (declareVariable type)

/-- Whether an identifier is next. -/
def atIdentifier : Parse Bool := do
  match (← get).next? with
  | some (.identifier _) => return true
  | _ => return false

/-- Reads declarations as long as an identifier is next. One that stops is recorded, and reading
goes on after its semicolon. -/
def declarations (declaration : Parse Unit) : Parse Unit := do
  discard <| many do
    if ← atIdentifier then
      if (← recovering declaration).isNone then discard (acceptSymbol .semicolon)
      return some ()
    else return none

/-- Reads the constant and variable sections. -/
def declarationPart : Parse Unit := do
  discard <| many do
    if ← acceptKeyword .const then
      declarations constantDeclaration
      return some ()
    else if ← acceptKeyword .var_ then
      declarations variableDeclaration
      return some ()
    else return none

/-! ## Expressions -/

/-- The relation that a lexeme denotes. -/
def relationOp? : Lexeme → Option BinaryOp
  | .symbol .equal => some .equal
  | .symbol .notEqual => some .notEqual
  | .symbol .less => some .less
  | .symbol .greater => some .greater
  | .symbol .atMost => some .atMost
  | .symbol .atLeast => some .atLeast
  | _ => none

/-- The operator between terms that a lexeme denotes. -/
def addOp? : Lexeme → Option BinaryOp
  | .symbol .plus => some .add
  | .symbol .minus => some .subtract
  | .keyword .or => some .or
  | _ => none

/-- The operator between factors that a lexeme denotes. -/
def mulOp? : Lexeme → Option BinaryOp
  | .symbol .star => some .multiply
  | .symbol .slash => some .divide
  | .keyword .div => some .div
  | .keyword .mod => some .mod
  | .keyword .and => some .and
  | _ => none

/-- Reads an operator of a class, if one is next, with its line. -/
def operator? (class? : Lexeme → Option BinaryOp) : Parse (Option (BinaryOp × Nat)) := do
  let s ← get
  match s.next?.bind class? with
  | some op =>
    advance
    return some (op, s.line)
  | none => return none

/-- Reads operands with operators of a class between them and groups them to the left, starting
from `first`. -/
def leftGrouped (class? : Lexeme → Option BinaryOp) (operand : Parse Expr) (first : Expr) :
    Parse Expr := do
  let others ← many do
    match ← operator? class? with
    | some (op, line) => return some (op, line, ← operand)
    | none => return none
  return others.foldl (fun left (op, line, right) => .binary op left right line) first

/-- Reads factors with multiplying operators between them. -/
def term (factor : Parse Expr) : Parse Expr := do
  leftGrouped mulOp? factor (← factor)

/-- Reads terms with adding operators between them, the first with an optional sign. -/
def simpleExpression (factor : Parse Expr) : Parse Expr := do
  let line := (← get).line
  if ← acceptSymbol .minus then
    let first ← term factor
    leftGrouped addOp? (term factor) (.unary .negate first line)
  else
    discard (acceptSymbol .plus)
    let first ← term factor
    leftGrouped addOp? (term factor) first

/-- Reads a simple expression, or two with a relation between them. -/
def relation (factor : Parse Expr) : Parse Expr := do
  let left ← simpleExpression factor
  match ← operator? relationOp? with
  | some (op, line) => return .binary op left (← simpleExpression factor) line
  | none => return left

/-- Reads an operand that begins with a name: a call of a predeclared function, a constant, or a
variable. A name that is not declared is recorded and read as a variable. -/
def namedOperand (expression : Parse Expr) (n : Name) : Parse Expr := do
  let s ← get
  match Builtin.ofName? n.key, s.next? with
  | some f, some (.symbol .openParen) =>
    advance
    let first ← expression
    let others ← many (afterSymbol? .comma expression)
    expectSymbol .closeParen
    unless others.isEmpty do report n.line (.parameterCount n.text)
    -- With more than one argument the program is refused, so the others are not needed.
    return .call f first n.line
  | _, _ =>
    match s.constants.lookup n.key with
    | some v => return .literal v n.line
    | none =>
      unless s.isVariable n.key do report n.line (.unknownIdentifier n.text)
      return .variable n.key n.line

/-- Reads a factor whose parts are read by the given parsers. -/
def factorWith (factor expression : Parse Expr) : Parse Expr := do
  let s ← get
  let line := s.line
  match s.next? with
  | some (.integer digits) =>
    advance
    return .literal (.integer (← inRange line (integerValue? digits))) line
  | some (.real numeral) =>
    advance
    return .literal (.real (← inRange line (realValue? numeral))) line
  | some (.string text) =>
    advance
    return .literal (.text text) line
  | some (.keyword .true_) =>
    advance
    return .literal (.boolean true) line
  | some (.keyword .false_) =>
    advance
    return .literal (.boolean false) line
  | some (.keyword .not) =>
    advance
    return .unary .not (← factor) line
  | some (.symbol .minus) =>
    advance
    return .unary .negate (← factor) line
  | some (.symbol .openParen) =>
    advance
    let inner ← expression
    expectSymbol .closeParen
    return inner
  | some (.identifier text) =>
    advance
    namedOperand expression ⟨text, line⟩
  | _ => unexpected .expression

/-- Stops because nothing may open here any more. -/
def tooDeep {α : Type} : Parse α := do
  stop (← get).line .tooDeep

mutual

/-- Reads a factor, with the given depth left. -/
def factor : Nat → Parse Expr
  | 0 => tooDeep
  | depth + 1 => factorWith (factor depth) (expression depth)

/-- Reads an expression, with the given depth left. -/
def expression : Nat → Parse Expr
  | 0 => tooDeep
  | depth + 1 => relation (factor depth)

end

/-! ## Statement lists -/

/-- Reads one statement of a list and what separates it from the next: the statement, if it was
read, and whether another follows. A statement that stops is recorded. So is a missing semicolon,
after which reading goes on at the next place where a statement can begin. -/
def statementTurn (statement : Parse Statement) : Parse (Option Statement × Bool) := do
  let read ← recovering statement
  if ← acceptSymbol .semicolon then return (read, true)
  else
    let s ← get
    match s.next? with
    | none | some (.keyword .end_) | some (.keyword .until_) => return (read, false)
    | some _ =>
      report s.line (.expected (.symbol .semicolon) s.found)
      synchronize
      -- An `else` that belongs to no `if` is passed over, or the list would not get on.
      discard (acceptKeyword .else_)
      return (read, true)

/-- Reads the statements of a list, in at most `turns` turns. -/
def statementsUpTo (statement : Parse Statement) : Nat → Parse (List Statement)
  | 0 => return []
  | n + 1 => do
    let (read, another) ← statementTurn statement
    let others ← if another then statementsUpTo statement n else pure []
    return read.toList ++ others

/-- Reads the statements of a list, up to the word that closes it or the end of the source. A turn
that another follows reads at least one token. -/
def statementList (statement : Parse Statement) : Parse (List Statement) := do
  statementsUpTo statement ((← get).tokens.length + 1)

/-! ## Statements -/

/-- The name of a variable that is assigned to. A constant or an undeclared name is recorded. -/
def assignable (n : Name) : Parse String := do
  let s ← get
  if s.isConstant n.key then report n.line (.assignToConstant n.text)
  else unless s.isVariable n.key do report n.line (.unknownIdentifier n.text)
  return n.key

/-- Reads the rest of an assignment to the name. -/
def assignment (expression : Parse Expr) (n : Name) : Parse Statement := do
  if ← acceptSymbol .assign then
    let target ← assignable n
    return .assign target (← expression) n.line
  else
    let s ← get
    if s.isVariable n.key || s.isConstant n.key then unexpected (.symbol .assign)
    else stop n.line (.unknownStatement (.text n.text))

/-- Reads the `end` that closes what the word opened on the given line. -/
def closing (opening : Keyword) (line : Nat) : Parse Unit := do
  unless ← acceptKeyword .end_ do
    stop (← get).line (.unclosed opening line)

/-- Reads the rest of a compound statement. -/
def compound (statement : Parse Statement) (line : Nat) : Parse Statement := do
  let body ← statementList statement
  closing .begin_ line
  return .compound body line

/-- Reads the rest of an `if` statement. An `else` belongs to the nearest `if`. -/
def ifThen (expression : Parse Expr) (statement : Parse Statement) (line : Nat) :
    Parse Statement := do
  let condition ← expression
  expectKeyword .then_
  let thenBranch ← statement
  let elseBranch ← afterKeyword? .else_ statement
  return .ifThen condition thenBranch elseBranch line

/-- Reads the rest of a `while` statement. -/
def whileDo (expression : Parse Expr) (statement : Parse Statement) (line : Nat) :
    Parse Statement := do
  let condition ← expression
  expectKeyword .do_
  return .whileDo condition (← statement) line

/-- Reads the rest of a `repeat` statement. -/
def repeatUntil (expression : Parse Expr) (statement : Parse Statement) (line : Nat) :
    Parse Statement := do
  let body ← statementList statement
  expectKeyword .until_
  return .repeatUntil body (← expression) line

/-- Reads the direction of a counting loop: whether it counts down. -/
def direction : Parse Bool := do
  if ← acceptKeyword .to_ then return false
  else if ← acceptKeyword .downto then return true
  else unexpected .direction

/-- Reads the rest of a `for` statement. -/
def forTo (expression : Parse Expr) (statement : Parse Statement) (line : Nat) :
    Parse Statement := do
  let counter ← assignable (← identifier)
  expectSymbol .assign
  let first ← expression
  let down ← direction
  let last ← expression
  expectKeyword .do_
  return .forTo counter first last down (← statement) line

/-- Reads a branch of a case with the semicolon after it, which only the last branch may lack;
yields nothing where the branches end. -/
def caseBranch? (statement : Parse Statement) : Parse (Option (List Value × Statement)) := do
  match (← get).next? with
  | none | some (.keyword .end_) | some (.keyword .else_) => return none
  | some _ =>
    let labels ← commaList constantValue
    expectSymbol .colon
    let body ← statement
    unless ← acceptSymbol .semicolon do
      unless (← atKeyword .end_) || (← atKeyword .else_) do
        unexpected (.symbol .semicolon)
    return some (labels, body)

/-- Reads the rest of a `case` statement. -/
def caseOf (expression : Parse Expr) (statement : Parse Statement) (line : Nat) :
    Parse Statement := do
  let selector ← expression
  expectKeyword .of
  let branches ← many (caseBranch? statement)
  let otherwise ← afterKeyword? .else_ (statementList statement)
  closing .case_ line
  return .caseOf selector branches (otherwise.getD []) line

/-- Reads an optional list in parentheses, which may be empty. -/
def parenthesized {α : Type} (item : Parse α) : Parse (List α) := do
  if ← acceptSymbol .openParen then
    if ← acceptSymbol .closeParen then return []
    else
      let items ← commaList item
      expectSymbol .closeParen
      return items
  else return []

/-- Reads a write item: a value, with a width after a colon, with decimals after another. -/
def writeItem (expression : Parse Expr) : Parse WriteItem := do
  let value ← expression
  if ← acceptSymbol .colon then
    let width ← expression
    let decimals ← afterSymbol? .colon expression
    return ⟨value, some width, decimals⟩
  else return ⟨value, none, none⟩

/-- Reads a statement whose parts are read by the given parsers. -/
def statementWith (expression : Parse Expr) (statement : Parse Statement) : Parse Statement := do
  let s ← get
  let line := s.line
  match s.next? with
  | none | some (.symbol .semicolon) | some (.keyword .end_) | some (.keyword .until_)
  | some (.keyword .else_) => return .empty line
  | some (.identifier text) =>
    advance
    assignment expression ⟨text, line⟩
  | some (.keyword w) =>
    advance
    match w with
    | .begin_ => compound statement line
    | .if_ => ifThen expression statement line
    | .while_ => whileDo expression statement line
    | .repeat_ => repeatUntil expression statement line
    | .for_ => forTo expression statement line
    | .case_ => caseOf expression statement line
    | .write => return .write false (← parenthesized (writeItem expression)) line
    | .writeln => return .write true (← parenthesized (writeItem expression)) line
    | .read => return .read false (← parenthesized (identifier >>= assignable)) line
    | .readln => return .read true (← parenthesized (identifier >>= assignable)) line
    | _ => stop line (.unknownStatement s.found)
  | some _ =>
    advance
    stop line (.unknownStatement s.found)

/-- Reads a statement, with the given depth left. -/
def statement : Nat → Parse Statement
  | 0 => tooDeep
  | depth + 1 => statementWith (expression depth) (statement depth)

/-! ## Programs -/

/-- Reads the program's name. -/
def heading : Parse String := do
  expectKeyword .program
  let name ← identifier
  expectSymbol .semicolon
  return name.text

/-- The tokens from the first declaration or `begin` on, or after the first semicolon before
that. -/
def skipHeading : List Token → List Token
  | [] => []
  | t :: ts =>
    match t.lexeme with
    | .keyword .const | .keyword .var_ | .keyword .begin_ => t :: ts
    | .symbol .semicolon => ts
    | _ => skipHeading ts

/-- Skipping the heading leaves an end of the tokens. -/
theorem skipHeading_suffix (ts : List Token) : skipHeading ts <:+ ts := by
  induction ts with
  | nil => exact List.suffix_rfl
  | cons t ts ih =>
    unfold skipHeading
    split
    · exact List.suffix_rfl
    · exact List.suffix_rfl
    · exact List.suffix_rfl
    · exact List.suffix_cons t ts
    · exact ih.trans (List.suffix_cons t ts)

/-- Reads the `end.` of the program, after which nothing may follow. -/
def programEnd : Parse Unit := do
  let s ← get
  unless ← acceptKeyword .end_ do
    if s.next?.isNone then stop s.line .missingProgramEnd else unexpected .programEnd
  unless ← acceptSymbol .dot do stop s.line .missingDot
  let s ← get
  if s.next?.isSome then stop s.line (.textAfterEnd s.found)

/-- Reads the statements of the program. -/
def body : Parse (List Statement) := do
  expectKeyword .begin_
  let statements ← statementList (statement nestingLimit)
  programEnd
  return statements

/-- The diagnostics of the tokens that are no lexemes. -/
def illegalTokens (tokens : List Token) : List Diagnostic :=
  tokens.filterMap fun t =>
    match t.lexeme with
    | .flaw cause => some ⟨t.line, .illegal cause⟩
    | _ => none

/-- Runs a parser; if it stops, records why and yields `default`. -/
def orElseReport {α : Type} (p : Parse α) (default : α) (s : ParserState) : α × ParserState :=
  match p s with
  | .ok a s => (a, s)
  | .error d s => (default, s.report d)

/-- The program that the tokens form, or everything that is wrong with them. -/
def parseProgram (source : TokenStream) : Except (List Diagnostic) Program :=
  let start : ParserState :=
    ⟨source.tokens, source.endLine, illegalTokens source.tokens, [], []⟩
  let (name?, s) := orElseReport (some <$> heading) none start
  let s := if name?.isNone then { s with tokens := skipHeading s.tokens } else s
  let (_, s) := orElseReport declarationPart () s
  let (statements, s) := orElseReport body [] s
  if s.diagnostics.isEmpty then .ok ⟨name?.getD "", s.declarations, s.constants, statements⟩
  else .error s.diagnostics

end TurboBench.Pascal
