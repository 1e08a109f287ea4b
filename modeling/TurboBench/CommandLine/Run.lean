import TurboBench.CommandLine.Page
import TurboBench.Shell.Clock
import TurboBench.Shell.Workbench

/-!
Carrying out command lines.

A command line is turned into commands of the workbench. Their answers are printed, refusals and
the log on the second output, and the exit code tells whether all went well. Settings are read
first; a settings file that is refused and a command line that makes no sense end with a code of
their own.
-/

namespace TurboBench.CommandLine

open TurboBench.Files (FileTree Path)
open TurboBench.Shell
open TurboBench.Text (alignLeft alignRight)

/-- What a command line leaves to see: its exit code, and the lines of both outputs. -/
structure Report where
  exit : Nat
  out : List String
  err : List String
  deriving DecidableEq, Repr

/-- Lines as they are printed. -/
def printed (lines : List String) : String :=
  String.join (lines.map (· ++ "\n"))

/-- The code of success. -/
def codeOk : Nat := 0

/-- The code of a command that did not do what was asked for. -/
def codeFailed : Nat := 1

/-- The code of a command line or a settings file that is refused. -/
def codeRefused : Nat := 2

/-- The lowest grade of events that the log shows. Quiet goes before verbose. -/
def Choices.lowest (c : Choices) : Grade :=
  if c.quiet then .error
  else match c.verbosity with
    | 0 => .warning
    | 1 => .note
    | _ => .detail

/-! ## Commands with their output -/

/-- What commands work on: the desk, and what was printed. -/
structure Terminal where
  desk : Desk
  out : List String
  err : List String

/-- Work on a terminal that may break down. -/
abbrev OnTerminal := EStateM Breakdown Terminal

/-- Prints lines. -/
def say (lines : List String) : OnTerminal Unit :=
  modify fun t => { t with out := t.out ++ lines }

/-- Prints lines on the second output. -/
def complain (lines : List String) : OnTerminal Unit :=
  modify fun t => { t with err := t.err ++ lines }

/-- Carries out a command and logs what happened. -/
def carryOut (b : Workbench) (lowest : Grade) (c : Workbench.Command) :
    OnTerminal Answer := fun t =>
  let o := b.perform t.desk c
  let t := { t with desk := o.desk, err := t.err ++ Event.log lowest o.events }
  match o.answer with
  | .ok a => .ok a t
  | .error e => .error e t

/-- The row of a file in a list. -/
def listingRow (l : Listing) : String :=
  s!"  {alignLeft 24 l.name} {alignRight 8 (toString l.size)}  {stamp l.modified}"

/-- What is printed of an answer that is no refusal. -/
def answerLines : Answer → List String
  | .refused _ | .loaded .. | .saved _ => []
  | .selected _ heading => [heading]
  | .compiled _ _ report | .executed _ report | .compiledAndExecuted _ _ report => [report]
  | a@(.listed files) => a.message :: files.map listingRow
  | a@(.sampled _) => [a.message]
  | .help page => [page.title, page.body]

/-- Prints an answer; the result is the exit code. -/
def tell (a : Answer) : OnTerminal Nat := do
  match a with
  | .refused t => complain [s!"Error: {t.text}"]
  | a => say (answerLines a)
  return if a.success then codeOk else codeFailed

/-- Puts a tool to work, loads a file and goes on with its text. -/
def withSource (b : Workbench) (lowest : Grade) (tool : String) (file : Option String)
    (next : String → Workbench.Command) : OnTerminal Nat := do
  let code ← tell (← carryOut b lowest (.select tool))
  if code != codeOk then return code
  let some file := file | throw .noFileName
  -- A file that was loaded is not reported, only one that was not.
  match ← carryOut b lowest (.load file) with
  | .loaded _ source => tell (← carryOut b lowest (next source))
  | a => tell a

/-- Carries out a request; the result is the exit code. -/
def carryOutRequest (b : Workbench) (lowest : Grade) : Request → OnTerminal Nat
  | .run tool file => withSource b lowest tool file .compileAndExecute
  | .compile tool file => withSource b lowest tool file .compile
  | .sample tool (some name) => do tell (← carryOut b lowest (.createSample tool name))
  -- The tool is looked at before the name is.
  | .sample tool none =>
    match Tool.ofAlias? tool with
    | none => tell (.refused (.noSample (.unknownTool tool)))
    | some _ => throw .noSampleName
  | .list => do tell (← carryOut b lowest .list)
  | .help tool => do tell (← carryOut b lowest (.help tool))

/-! ## Command lines -/

/-- What is printed for a command line that is not carried out. -/
def Interruption.report (i : Interruption) : Report :=
  match i.halt with
  | .help => ⟨codeOk, page i.verb, []⟩
  | .complaint c => ⟨codeRefused, [], complaintLines i.verb c⟩

/-- The tree of files after a command line, and what is left to see. -/
structure Effect where
  files : FileTree
  report : Except Breakdown Report

/-- The path that a switch gives, if it is used. -/
def PathChoice.path? : PathChoice → Except Breakdown (Option Path)
  | .unused => .ok none
  | .pathless => .error .noPath
  | .path p => .ok (some p)

/-- The settings in force for a command line. -/
def settingsFor (s : Surroundings) (files : FileTree) (c : Choices) :
    Except (Failure SettingsFlaw) Settings :=
  match c.config.path? with
  | .error b => .error (.broken b)
  | .ok config =>
    match Settings.load s files config with
    | .error f => .error f
    | .ok settings =>
      match c.workspace.path? with
      | .error b => .error (.broken b)
      | .ok workspace =>
        .ok { settings with workspace := workspace.getD settings.workspace }

/-- Carries out what a command line asks for. -/
def Invocation.carryOut (i : Invocation) (s : Surroundings) (moment : Int) (files : FileTree) :
    Effect :=
  match settingsFor s files i.choices with
  | .error (.broken b) => ⟨files, .error b⟩
  | .error (.refused f) => ⟨files, .ok ⟨codeRefused, [], [s!"Error: {f.text}"]⟩⟩
  | .ok settings =>
    let b : Workbench := ⟨settings, s.workingFolder, .bundled, moment, s.stack⟩
    match b.start files with
    | (desk, some e) => ⟨desk.files, .error e⟩
    | (desk, none) =>
      let lowest := i.choices.lowest
      let log := Event.log lowest [.started settings.workspace]
      match carryOutRequest b lowest i.request ⟨desk, [], log⟩ with
      | .ok code t => ⟨t.desk.files, .ok ⟨code, t.out, t.err⟩⟩
      | .error e t => ⟨t.desk.files, .error e⟩

/-- Carries out a command line. -/
def carryOutLine (s : Surroundings) (moment : Int) (files : FileTree) (line : List String) :
    Effect :=
  match Invocation.read line with
  | .error i => ⟨files, .ok i.report⟩
  | .ok i => i.carryOut s moment files

/-- A command line that is not carried out changes no file. -/
theorem files_of_interruption {line : List String} {i : Interruption}
    (h : Invocation.read line = .error i) (s : Surroundings) (moment : Int) (files : FileTree) :
    (carryOutLine s moment files line).files = files := by
  simp [carryOutLine, h]

end TurboBench.CommandLine
