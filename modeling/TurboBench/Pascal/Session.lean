import TurboBench.Pascal.Execution
import TurboBench.Pascal.Lexer
import TurboBench.Pascal.Parser

/-!
Compiling, and sessions in which programs are run with breakpoints.

A session remembers the step limit, the lines with a breakpoint and whether debugging is on.
Breakpoints stay set while debugging is off; they only have no effect then.
-/

namespace TurboBench.Pascal

/-! ## Compiling -/

/-- Compiles a source text. -/
def compile (source : List Char) : Except (List Diagnostic) Program :=
  parseProgram (tokenize source)

/-- The outcome of a compilation as it is reported. -/
structure CompileResult where
  program : Option Program
  errors : List String
  warnings : List String
  statementCount : Nat

namespace CompileResult

/-- Whether the source compiled. -/
def success (r : CompileResult) : Bool :=
  r.program.isSome

/-- The report of a compilation. A program without executable statements draws a warning. -/
def of : Except (List Diagnostic) Program → CompileResult
  | .error ds => ⟨none, ds.map (·.text), [], 0⟩
  | .ok p =>
    let count := p.statementCount
    ⟨some p, [], if count = 0 then ["Program has no executable statements"] else [], count⟩

end CompileResult

/-- Compiles a source text and reports the outcome. -/
def compileResult (source : List Char) : CompileResult :=
  .of (compile source)

/-! ## Sessions -/

/-- The settings that programs are run with. -/
structure Session where
  stepLimit : Int
  /-- The levels that there is room for on the stack that programs are run on. -/
  room : Nat
  /-- The lines with a breakpoint, in ascending order. -/
  breakpoints : List Int
  debug : Bool
  deriving DecidableEq, Repr

namespace Session

/-- The step limit where none is given. -/
def defaultStepLimit : Int := 10000

/-- A new session: no breakpoints, debugging off. -/
def new (stepLimit : Int) (room : Nat) : Session :=
  ⟨stepLimit, room, [], false⟩

/-- A line put into an ascending list that does not hold it. -/
def insertLine (line : Int) : List Int → List Int
  | [] => [line]
  | l :: ls => if line < l then line :: l :: ls else l :: insertLine line ls

/-- The session with a breakpoint on a line. -/
def setBreakpoint (s : Session) (line : Int) : Session :=
  if s.breakpoints.contains line then s
  else { s with breakpoints := insertLine line s.breakpoints }

/-- The session without a breakpoint on a line. -/
def clearBreakpoint (s : Session) (line : Int) : Session :=
  { s with breakpoints := s.breakpoints.filter (· != line) }

/-- The session with debugging switched on or off. -/
def setDebug (s : Session) (on : Bool) : Session :=
  { s with debug := on }

/-- Whether a run in the session pauses on a line. -/
def breaks (s : Session) (line : Nat) : Bool :=
  s.debug && s.breakpoints.contains (line : Int)

/-- Runs what a compilation yielded. -/
def execute (s : Session) : Option Program → RunResult
  | none => .notCompiled
  | some p => p.execute s.room s.stepLimit s.breaks

/-- What the session answers to a breakpoint being set. -/
def breakpointSetText (line : Int) : String :=
  s!"Breakpoint set at line {line}"

/-- What the session answers to a breakpoint being cleared. -/
def breakpointClearedText (line : Int) : String :=
  s!"Breakpoint cleared at line {line}"

/-- What the session answers to debugging being switched. -/
def debugText (on : Bool) : String :=
  if on then "Debug mode enabled" else "Debug mode disabled"

/-! ## What the commands do to the breakpoints -/

/-- A line that is entered is among the lines, and no other is lost or added. -/
theorem mem_insertLine (line m : Int) (ls : List Int) :
    m ∈ insertLine line ls ↔ m = line ∨ m ∈ ls := by
  induction ls with
  | nil => simp [insertLine]
  | cons l ls ih =>
    unfold insertLine
    split
    · simp
    · simp only [List.mem_cons, ih]
      constructor <;> rintro (h | h | h) <;> simp [h]

/-- Setting a breakpoint adds its line and keeps the others. -/
theorem mem_setBreakpoint (s : Session) (line m : Int) :
    m ∈ (s.setBreakpoint line).breakpoints ↔ m = line ∨ m ∈ s.breakpoints := by
  unfold setBreakpoint
  split
  · rename_i h
    have : line ∈ s.breakpoints := by simpa using h
    constructor
    · exact Or.inr
    · rintro (rfl | h)
      · exact this
      · exact h
  · exact mem_insertLine line m s.breakpoints

theorem mem_clearBreakpoint (s : Session) (line m : Int) :
    m ∈ (s.clearBreakpoint line).breakpoints ↔ m ∈ s.breakpoints ∧ m ≠ line := by
  simp [clearBreakpoint]

/-- Without debugging no line pauses a run. -/
theorem breaks_of_not_debug {s : Session} (h : s.debug = false) (line : Nat) :
    s.breaks line = false := by
  simp [breaks, h]

end Session

end TurboBench.Pascal
