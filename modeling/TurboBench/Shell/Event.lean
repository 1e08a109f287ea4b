import TurboBench.Asm.Execution
import TurboBench.Files.Path
import TurboBench.Pascal.Session
import TurboBench.Shell.Tool
import TurboBench.Text.Quoted

/-!
The events that the workbench keeps a log of.

An event is what happened; how grave it is, which part of the workbench it concerns and how it
reads in the log follow from that. A log shows the events down to some grade.
-/

namespace TurboBench.Shell

open TurboBench.Files (Path)
open TurboBench.Text (quoted hexAddress)

/-- How grave an event is. -/
inductive Grade
  | detail
  | note
  | warning
  | error
  deriving DecidableEq, Repr

namespace Grade

/-- The name in the log. -/
def name : Grade → String
  | .detail => "DEBUG"
  | .note => "INFO"
  | .warning => "WARNING"
  | .error => "ERROR"

/-- The rank among the grades. -/
def rank : Grade → Nat
  | .detail => 0
  | .note => 1
  | .warning => 2
  | .error => 3

end Grade

/-- Something that happened. -/
inductive Event
  | started (workspace : Path)
  | selected (tool : Tool)
  | loaded (file : Path) (characters : Nat)
  | saved (file : Path) (characters : Nat)
  | sampled (tool : Tool) (name : String) (file : Path)
  | laidOut (segment : Option Asm.Segment) (address : Nat)
  | assembled (records labels errors : Nat)
  | assemblyHalted (executed : Nat)
  | notCompiled (errors : Nat)
  | compiled (program : String) (statements declared : Nat)
  | programHalted (program : String) (steps : Nat)
  | programPaused (program : String) (line : Nat)
  | executed (statements lines : Nat)
  deriving DecidableEq, Repr

namespace Event

/-- How grave an event is. -/
def grade : Event → Grade
  | .started _ | .selected _ | .laidOut .. | .assembled .. | .notCompiled _ | .compiled ..
  | .executed .. => .detail
  | .loaded .. | .saved .. | .sampled .. | .programPaused .. => .note
  | .assemblyHalted _ | .programHalted .. => .warning

/-- The part of the workbench that an event concerns. -/
def part : Event → String
  | .started _ => "cli"
  | .selected _ | .loaded .. | .saved .. | .sampled .. => "manager"
  | .laidOut .. | .assembled .. | .assemblyHalted _ => "asm.assembler"
  | .notCompiled _ | .compiled .. => "pascal.engine"
  | .programHalted .. | .programPaused .. | .executed .. => "pascal.interpreter"

/-- The wording of an event. -/
def text : Event → String
  | .started workspace => s!"Workspace: {workspace.text}"
  | .selected tool => s!"Selected engine {tool.name}"
  | .loaded file n => s!"Loaded {file.text} ({n} bytes)"
  | .saved file n => s!"Saved {file.text} ({n} bytes)"
  | .sampled tool name file => s!"Created sample {tool.name}/{name} at {file.text}"
  | .laidOut segment address =>
    let place := segment.elim "no" (·.name)
    s!"Pass 1 finished in {place} segment at 0x{hexAddress address}"
  | .assembled records labels errors =>
    s!"Assembled {records} records, {labels} labels, {errors} errors"
  | .assemblyHalted n => s!"Execution stopped after {n} instructions (step limit)"
  | .notCompiled n => s!"Compilation failed with {n} errors"
  | .compiled program statements declared =>
    s!"Compiled program {quoted program}: {statements} statements, {declared} variables"
  | .programHalted program n => s!"Pascal program {quoted program} stopped after {n} steps"
  | .programPaused program line => s!"Pascal program {quoted program} paused at line {line}"
  | .executed statements lines => s!"Executed {statements} statements, {lines} output lines"

/-- The line of an event in the log. -/
def line (e : Event) : String :=
  s!"{e.grade.name}: {programName}.{e.part}: {e.text}"

/-- The lines of a log that shows events down to a grade. -/
def log (lowest : Grade) (events : List Event) : List String :=
  (events.filter fun e => lowest.rank ≤ e.grade.rank).map line

/-! ## What the tools report -/

/-- The events of an assembly. -/
def ofAssembly (a : Asm.Assembly) : List Event := [
  .laidOut a.layout.segment a.layout.address,
  .assembled a.records.length a.labels.length a.errors.length]

/-- The events of a run of an assembly. -/
def ofAssemblyRun (r : Asm.RunResult) : List Event :=
  if r.stepLimitReached then [.assemblyHalted r.executed] else []

/-- The events of a compilation. -/
def ofCompilation (r : Pascal.CompileResult) : List Event :=
  match r.program with
  | none => [.notCompiled r.errors.length]
  | some p => [.compiled p.name r.statementCount p.declarations.length]

/-- The events of a run of what a compilation yielded. What did not compile does not run. -/
def ofProgramRun (program : Option Pascal.Program) (r : Pascal.RunResult) : List Event :=
  match program with
  | none => []
  | some p =>
    (if r.stepLimitReached then [.programHalted p.name r.steps] else [])
      ++ (r.breakpointLine.map (.programPaused p.name)).toList
      ++ [.executed r.steps r.output.length]

/-- A log down to details shows everything. -/
theorem length_log_detail (events : List Event) :
    (log .detail events).length = events.length := by
  simp [log, Grade.rank]

end Event

end TurboBench.Shell
