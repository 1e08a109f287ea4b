import TurboBench.Asm.Report
import TurboBench.Pascal.Report
import TurboBench.Shell.Breakdown
import TurboBench.Shell.Event
import TurboBench.Shell.Settings
import TurboBench.Stack

/-!
Engines, and what they make.

An engine is a tool at work, with the limits that it was put to work with. It keeps nothing of what
it does: what it makes of a source, an artifact, is held by whoever asked for it, and handed back to
be executed. An artifact may be a failure; executing it is possible and says so.

Nothing keeps an engine from being handed what the other tool has made. A failure is reported as one
of its own would be, and on anything else it breaks down, since it does not find what it looks for.
-/

namespace TurboBench.Shell

/-- What a tool makes of a source. -/
inductive Artifact
  | assembly (a : Asm.Assembly)
  | compilation (r : Pascal.CompileResult)

/-- An engine. -/
inductive Engine
  | assembler (limits : Asm.Limits)
  | pascal (session : Pascal.Session)

/-- The outcome of executing: whether it went well, the report, and what happened. -/
structure Work where
  success : Bool
  report : String
  events : List Event

namespace Artifact

/-- The tool that makes such things. -/
def tool : Artifact → Tool
  | .assembly _ => .assembler
  | .compilation _ => .pascal

/-- Whether making it went well. -/
def success : Artifact → Bool
  | .assembly a => a.success
  | .compilation r => r.success

/-- The report on how it was made. -/
def report : Artifact → String
  | .assembly a => a.report
  | .compilation r => r.report

/-- What happened when it was made. -/
def events : Artifact → List Event
  | .assembly a => Event.ofAssembly a
  | .compilation r => Event.ofCompilation r

end Artifact

namespace Work

/-- The outcome of a run of an assembly. -/
def ofAssemblyRun (r : Asm.RunResult) : Work :=
  ⟨r.success, r.report, Event.ofAssemblyRun r⟩

/-- The outcome of a run of what a compilation yielded. -/
def ofProgramRun (program : Option Pascal.Program) (r : Pascal.RunResult) : Work :=
  ⟨r.success, r.report, Event.ofProgramRun program r⟩

end Work

namespace Engine

/-- An engine with the limits of the settings, on a stack. -/
def new (s : Settings) (stack : Stack) : Tool → Engine
  | .assembler => .assembler ⟨s.assemblerSteps, s.memoryDump⟩
  | .pascal => .pascal (.new s.pascalSteps stack.levels)

/-- The tool of an engine. -/
def tool : Engine → Tool
  | .assembler _ => .assembler
  | .pascal _ => .pascal

/-- The heading of the tool. -/
def heading : Engine → String
  | .assembler _ => Asm.assemblerHeading
  | .pascal _ => Pascal.compilerHeading

/-- What an engine makes of a source; nothing, if there is not room enough on the stack. -/
def compile (e : Engine) (stack : Stack) (source : String) : Option Artifact :=
  match e with
  | .assembler _ => (Asm.assembleWithin stack.levels source.toList).map .assembly
  | .pascal _ => some (.compilation (Pascal.compileResult source.toList))

/-- Executes an artifact. -/
def execute (e : Engine) (a : Artifact) : Except Breakdown Work :=
  match e, a with
  | .assembler limits, .assembly a => .ok (.ofAssemblyRun (a.execute limits []))
  | .pascal session, .compilation c => .ok (.ofProgramRun c.program (session.execute c.program))
  -- Whether it is a failure is all that an engine can tell of what the other tool has made.
  | .assembler limits, .compilation c =>
    if c.success then .error (.foreignArtifact .pascal)
    else .ok (.ofAssemblyRun (.notAssembled limits))
  | .pascal session, .assembly a =>
    if a.success then .error (.foreignArtifact .assembler)
    else .ok (.ofProgramRun none (session.execute none))

@[simp] theorem tool_new (s : Settings) (stack : Stack) (t : Tool) : (new s stack t).tool = t := by
  cases t <;> rfl

/-- What an engine makes is of its own tool. -/
theorem tool_of_compile {e : Engine} {stack : Stack} {source : String} {a : Artifact}
    (h : e.compile stack source = some a) : a.tool = e.tool := by
  cases e with
  | assembler limits =>
    obtain ⟨_, -, rfl⟩ := Option.map_eq_some_iff.1 h
    rfl
  | pascal session =>
    obtain rfl := Option.some.inj h
    rfl

/-- What an engine makes it can execute. -/
theorem exists_execute {e : Engine} {a : Artifact} (h : a.tool = e.tool) :
    ∃ work, e.execute a = .ok work := by
  cases e with
  | assembler limits =>
    cases a with
    | assembly a => exact ⟨_, rfl⟩
    | compilation c => cases h
  | pascal session =>
    cases a with
    | assembly a => cases h
    | compilation c => exact ⟨_, rfl⟩

end Engine

end TurboBench.Shell
