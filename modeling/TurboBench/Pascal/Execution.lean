import TurboBench.Pascal.Evaluation
import TurboBench.Pascal.Word
import TurboBench.Pascal.WriteField

/-!
Execution of programs.

A run carries a budget of steps. Every simple statement takes one step, a conditional takes one for
itself, and a loop takes one per turn, so a run ends whatever the program does: the loops recurse on
the budget, which each of their turns makes smaller, and everything else recurses on the syntax
tree. When a step is due and none is left, the run stops.

A run also has a stack with room for so many levels. Each operation inside another takes one, and so
does each statement inside another, so the expressions of a statement have the less room the deeper
the statement lies.

A run can stop in three ways before the program is through: by a fault, by the budget, or at a
breakpoint, which is looked for before a statement begins. In every case the state is the one that
was reached, and a line of output that was begun is kept.
-/

namespace TurboBench.Pascal

/-- Why a run stopped before the end of its program. -/
inductive Stop where
  | fault (error : RuntimeError)
  | stepLimit
  | breakpoint (line : Nat)
  deriving DecidableEq, Repr

/-- The state of a run: the variables, the lines written so far, the line that is being written if
one is, the warnings, the steps that are left, and the line of the statement last begun. -/
structure RunState where
  store : Store
  lines : Array String
  pending : Option String
  warnings : Array String
  left : Nat
  line : Nat

/-- An action of a run, which may stop it. -/
abbrev Run := EStateM Stop RunState

namespace Run

/-- Takes one step, or stops if none is left. -/
def step : Run Unit := fun s =>
  match s.left with
  | 0 => .error .stepLimit s
  | n + 1 => .ok () { s with left := n }

/-- The value of a computation that may fault. -/
def check {α : Type} : Except RuntimeError α → Run α
  | .ok a => return a
  | .error e => throw (.fault e)

/-- Stops with a fault of the given line. -/
def fault {α : Type} (line : Nat) (f : Fault) : Run α :=
  throw (.fault ⟨f, line⟩)

/-- The value of an expression in the present state. -/
def eval (room : Nat) (e : Expr) : Run Value := fun s =>
  check (e.evalWithin s.store s.line room) s

/-- The truth value of a condition. -/
def condition (room : Nat) (e : Expr) (line : Nat) : Run Bool := do
  match ← eval room e with
  | .boolean b => return b
  | v => fault line (.condition v.type)

/-- Assigns a value to a variable. -/
def assign (name : String) (value : Value) (line : Nat) : Run Unit := fun s =>
  match charge line (s.store.set name value) with
  | .ok σ => .ok () { s with store := σ }
  | .error e => .error (.fault e) s

/-- Adds text to the line that is being written, and ends the line if asked to. -/
def emit (text : String) (newline : Bool) : Run Unit :=
  modify fun s =>
    -- A line is begun even if the text is empty.
    let line := s.pending.getD "" ++ text
    if newline then { s with lines := s.lines.push line, pending := none }
    else { s with pending := some line }

/-- Begins a statement: notes its line and stops if there is a breakpoint on it. Statements that
are no steps of their own are passed over. -/
def enter (breaks : Nat → Bool) (s : Statement) : Run Unit := do
  if s.isStep then
    modify fun state => { state with line := s.line }
    if breaks s.line then throw (.breakpoint s.line)

/-! ## Write and read -/

/-- The value of a field width or a number of decimals. -/
def fieldNumber (room line : Nat) : Option Expr → Run (Option Int)
  | none => return none
  | some e => do
    match ← eval room e with
    | .integer n => return some n
    | _ => fault line .fieldWidth

/-- The text of a write item. -/
def itemText (room line : Nat) (item : WriteItem) : Run String := do
  let value ← eval room item.value
  let width ← fieldNumber room line item.width
  let decimals ← fieldNumber room line item.decimals
  return writeField value width decimals

/-- Gives a variable its initial value, since there is nothing to read, and warns of it. -/
def readNothing (word : Keyword) (line : Nat) (name : String) : Run Unit := fun s =>
  match s.store.reset? name with
  | some (σ, v) =>
    let warning := s!"Line {line}: {word.text} has no input, '{name}' set to {shown v}"
    .ok () { s with store := σ, warnings := s.warnings.push warning }
  | none => .error (.fault ⟨.unknownIdentifier name, line⟩) s

/-! ## Loops -/

/-- Repeats a body as long as the condition holds; each turn ends with a step. The count bounds the
steps that are left, so with a count of zero the step stops the run. -/
def whileTurns (condition : Run Bool) (body : Run Unit) : Nat → Run Unit
  | 0 => do
    if ← condition then
      body
      step
  | n + 1 => do
    if ← condition then
      body
      step
      whileTurns condition body n

/-- Repeats a body as long as the condition holds; each turn ends with a step. -/
def whileLoop (condition : Run Bool) (body : Run Unit) : Run Unit := do
  whileTurns condition body (← get).left

/-- Repeats a body until the condition holds; each turn begins with a step. The count bounds the
steps that are left, so with a count of zero the step stops the run. -/
def repeatTurns (body : Run Unit) (condition : Run Bool) : Nat → Run Unit
  | 0 => step
  | n + 1 => do
    step
    body
    unless ← condition do repeatTurns body condition n

/-- Repeats a body until the condition holds; each turn begins with a step. -/
def repeatLoop (body : Run Unit) (condition : Run Bool) : Run Unit := do
  repeatTurns body condition (← get).left

/-- Carries out a body for `n` values of a counter, `by_` apart, from `first` on; each turn ends
with a step. -/
def forTurns (assignCounter : Int → Run Unit) (body : Run Unit) (by_ : Int) :
    (first : Int) → (n : Nat) → Run Unit
  | _, 0 => return ()
  | first, n + 1 => do
    assignCounter first
    body
    step
    forTurns assignCounter body by_ (first + by_) n

/-- How many values a counter takes. -/
def turnCount (first last : Int) (down : Bool) : Nat :=
  if down then (first - last + 1).toNat else (last - first + 1).toNat

end Run

/-- Whether one of the labels of a case branch equals the selector. -/
def selects (selector : Value) (labels : List Value) : Bool :=
  labels.any fun label => selector.compare? label == some .eq

open Run

mutual

/-- Carries out a statement that has been begun. -/
def Statement.perform (breaks : Nat → Bool) : (room : Nat) → Statement → Run Unit
  | room, .assign target value line => do
    step
    assign target (← eval room value) line
  | room, .write newline items line => do
    step
    emit (String.join (← items.mapM (itemText room line))) newline
  | _, .read newline targets line => do
    step
    targets.forM (readNothing (if newline then .readln else .read) line)
  | room, .ifThen c t (some e) line => do
    step
    if ← condition room c line then
      enter breaks t
      t.perform breaks (room - 1)
    else
      enter breaks e
      e.perform breaks (room - 1)
  | room, .ifThen c t none line => do
    step
    if ← condition room c line then
      enter breaks t
      t.perform breaks (room - 1)
  | room, .whileDo c b line => do
    step
    whileLoop (condition room c line) do
      enter breaks b
      b.perform breaks (room - 1)
  | room, .repeatUntil b c line =>
    repeatLoop (performAll breaks (room - 1) b) (condition room c line)
  | room, .forTo counter first last down b line => do
    step
    -- Both bounds are evaluated before the first turn, and before either is looked at.
    let first ← eval room first
    let last ← eval room last
    match first, last with
    | .integer m, .integer n =>
      forTurns (fun i => assign counter (.integer i) line)
        (do
          enter breaks b
          b.perform breaks (room - 1))
        (if down then -1 else 1) m (turnCount m n down)
    | _, _ => fault line .loopBounds
  | room, .caseOf selector branches otherwise _ => do
    step
    let v ← eval room selector
    performBranch breaks (room - 1) v (performAll breaks (room - 1) otherwise) branches
  | room, .compound body _ => performAll breaks (room - 1) body
  | _, .empty _ => return ()

/-- Carries out the statements of a list, one after the other. -/
def performAll (breaks : Nat → Bool) : (room : Nat) → List Statement → Run Unit
  | _, [] => return ()
  | room, s :: ss => do
    enter breaks s
    s.perform breaks room
    performAll breaks room ss

/-- Carries out the first branch with a label equal to the selector, or `otherwise`. -/
def performBranch (breaks : Nat → Bool) : (room : Nat) → (selector : Value) →
    (otherwise : Run Unit) → List (List Value × Statement) → Run Unit
  | _, _, otherwise, [] => otherwise
  | room, selector, otherwise, (labels, s) :: bs =>
    if selects selector labels then do
      enter breaks s
      s.perform breaks room
    else performBranch breaks room selector otherwise bs

end

/-- Carries out a statement, unless there is a breakpoint on its line. -/
def Statement.execute (breaks : Nat → Bool) (room : Nat) (s : Statement) : Run Unit := do
  enter breaks s
  s.perform breaks room

/-! ## Runs of programs -/

/-- What a run leaves: why it stopped, if it did not end by itself, and the state it reached. -/
structure Ending where
  stop : Option Stop
  state : RunState

/-- The state in which a program starts, with a budget of steps. -/
def Program.start (p : Program) (budget : Nat) : RunState where
  store := p.declarations.foldl (fun σ d => σ.declare d.name d.type) .empty
  lines := #[]
  pending := none
  warnings := #[]
  left := budget
  line := 0

/-- Runs a program on a stack with room for so many levels. -/
def Program.run (p : Program) (room budget : Nat) (breaks : Nat → Bool) : Ending :=
  match performAll breaks room p.body (p.start budget) with
  | .ok _ s => ⟨none, s⟩
  | .error e s => ⟨some e, s⟩

/-- The result of a run as it is reported. -/
structure RunResult where
  success : Bool
  output : List String
  finalValues : List (String × Value)
  steps : Nat
  stepLimitReached : Bool
  error : Option String
  warnings : List String
  breakpointLine : Option Nat

/-- The text of the error that a stop under the given step limit is reported as; a breakpoint is no
error. -/
def Stop.error? (limit : Int) : Stop → Option String
  | .fault e => some e.report
  | .stepLimit => some s!"Execution halted: step limit of {limit} statements reached"
  | .breakpoint _ => none

/-- The line that a stop adds to the output. -/
def Stop.statusLine (limit : Int) : Stop → String
  | .breakpoint line => s!"Breakpoint at line {line}"
  | .fault e => e.report
  | .stepLimit => s!"Execution halted: step limit of {limit} statements reached"

/-- The result of a program that did not compile. -/
def RunResult.notCompiled : RunResult where
  success := false
  output := ["Program was not compiled successfully"]
  finalValues := []
  steps := 0
  stepLimitReached := false
  error := none
  warnings := []
  breakpointLine := none

/-- Runs a program with a step limit and reports the result. A limit below zero allows no step. -/
def Program.execute (p : Program) (room : Nat) (limit : Int) (breaks : Nat → Bool) : RunResult :=
  let ending := p.run room limit.toNat breaks
  let s := ending.state
  let error := ending.stop.bind (·.error? limit)
  { success := error.isNone
    output := s.lines.toList ++ s.pending.toList ++ (ending.stop.map (·.statusLine limit)).toList
    finalValues := s.store.toList
    steps := limit.toNat - s.left
    stepLimitReached := ending.stop == some .stepLimit
    error := error
    warnings := s.warnings.toList
    breakpointLine := match ending.stop with
      | some (.breakpoint line) => some line
      | _ => none }

end TurboBench.Pascal
