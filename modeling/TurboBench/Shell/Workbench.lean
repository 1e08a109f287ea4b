import TurboBench.Shell.Engine
import TurboBench.Shell.Help
import TurboBench.Shell.Library

/-!
The workbench: commands on a workspace, with one tool at work.

A command finds a desk and leaves one: the tool that was selected, the engine, the artifact that was
made last, the file worked on last, and the tree of files. The first three are things of their own,
each set by the commands that concern it, and that they fit together is a property of what commands
leave. A command also leaves the events to be logged, and an answer. An answer can be a refusal,
which says why and changes none of these but the files; only a breakdown leaves no answer.

Names of files are relative to the workspace. They are joined to it and freed of dots before
anything else is done, and a name that does not lead strictly below the workspace is refused.
-/

namespace TurboBench.Shell

open TurboBench.Files (Path Location FileTree Fault File ReadFlaw)
open TurboBench.Text (lower)

/-! ## Answers -/

/-- Why a command is refused. -/
inductive Trouble
  | unknownTool (name : String)
  | noTool
  | nothingCompiled
  | escapes (name : String)
  | notFound (name : String)
  | notLoaded (f : ReadFlaw)
  | notSaved (f : Fault)
  | notListed (f : Fault)
  | noSample (f : SampleFlaw)
  deriving DecidableEq, Repr

/-- The wording of a refusal. -/
def Trouble.text : Trouble → String
  | .unknownTool name => s!"Unknown emulator type: {name}. Supported types: asm, pascal"
  | .noTool => "No emulator initialized. Use \"run asm\" or \"run pascal\" first."
  | .nothingCompiled => "Nothing to execute. Compile a program first."
  | .escapes name => s!"Path escapes workspace: {name}"
  | .notFound name => s!"File not found: {name}"
  | .notLoaded f => s!"Error loading file: {f.text}"
  | .notSaved f => s!"Error saving file: {f.text}"
  | .notListed f => s!"Error listing files: {f.text}"
  | .noSample f => f.text

/-- A file as it is listed. -/
structure Listing where
  name : String
  size : Nat
  modified : Int
  kind : String
  deriving DecidableEq, Repr

/-- The ending of a name from its last point on, in small letters. A point at either end of the
name makes no ending. -/
def kindOf (name : String) : String :=
  let cs := name.toList
  let behind := cs.reverse.takeWhile (· != '.')
  if behind.isEmpty || cs.length ≤ behind.length + 1 then ""
  else String.ofList (lower ('.' :: behind.reverse))

/-- What a command answers. -/
inductive Answer
  | refused (t : Trouble)
  | selected (tool : Tool) (heading : String)
  | loaded (name source : String)
  | saved (name : String)
  | compiled (tool : Tool) (success : Bool) (report : String)
  | executed (success : Bool) (report : String)
  | compiledAndExecuted (tool : Tool) (success : Bool) (report : String)
  | listed (files : List Listing)
  | sampled (s : Sample)
  | help (page : HelpPage)
  deriving DecidableEq, Repr

namespace Answer

/-- Whether a command did what was asked for. -/
def success : Answer → Bool
  | .refused _ => false
  | .compiled _ success _ | .executed success _ | .compiledAndExecuted _ success _ => success
  | .selected .. | .loaded .. | .saved _ | .listed _ | .sampled _ | .help _ => true

/-- The wording of a compilation's outcome. -/
def compiledText (tool : Tool) (success : Bool) : String :=
  let activity := match tool with
    | .assembler => "Assembly"
    | .pascal => "Compilation"
  if success then s!"{activity} completed successfully" else s!"{activity} failed"

/-- The wording of an execution's outcome. -/
def executedText (success : Bool) : String :=
  if success then "Program executed successfully" else "Program execution failed"

/-- The message of an answer. -/
def message : Answer → String
  | .refused t => t.text
  | .selected tool _ => s!"{tool.title} initialized"
  | .loaded name _ => s!"File loaded: {name}"
  | .saved name => s!"File saved: {name}"
  | .compiled tool success _ => compiledText tool success
  | .executed success _ => executedText success
  | .compiledAndExecuted tool success _ => s!"{compiledText tool true}. {executedText success}"
  | .listed files => s!"Found {files.length} files in workspace"
  | .sampled s => s!"Sample program created: {s.fileName}"
  | .help page => page.title

end Answer

/-- The number of lines of a text: the line feeds in it and one. -/
def lineCount (source : String) : Nat :=
  source.toList.count '\n' + 1

/-! ## The desk -/

/-- What commands find and leave. -/
structure Desk where
  tool : Option Tool
  engine : Option Engine
  compiled : Option Artifact
  currentFile : Option String
  files : FileTree

/-- What comes of a command. -/
structure Outcome where
  desk : Desk
  events : List Event
  answer : Except Breakdown Answer

namespace Desk

/-- The desk with nothing on it but files. -/
def empty (files : FileTree) : Desk :=
  ⟨none, none, none, none, files⟩

/-- The outcome of a command that is refused and leaves a desk. -/
def refuse (d : Desk) (t : Trouble) : Outcome :=
  ⟨d, [], .ok (.refused t)⟩

/-- The outcome of a command that breaks down and leaves a desk. -/
def breakDown (d : Desk) (b : Breakdown) : Outcome :=
  ⟨d, [], .error b⟩

end Desk

/-- How the workbench stands at a moment. -/
structure Status where
  tool : String
  currentFile : String
  workspace : String
  compiled : Bool
  deriving DecidableEq, Repr

/-! ## The workbench -/

/-- A workbench: its settings, the folder that relative paths start from, the samples, the moment
that new files are dated with, and the stack that it works on. -/
structure Workbench where
  settings : Settings
  workingFolder : Location
  samples : Library
  moment : Int
  stack : Stack

/-- Why a name leads to no place in the workspace. -/
inductive Misplaced
  | nul
  | outside
  deriving DecidableEq, Repr

namespace Workbench

/-- The location of the workspace. -/
def root (b : Workbench) : Location :=
  b.settings.workspace.location b.workingFolder

/-- The place that a name leads to in the workspace. -/
def place (b : Workbench) (name : String) : Except Misplaced Location :=
  let p := Path.ofString name
  if p.hasNul then .error .nul
  else
    let l := p.location b.root
    if Location.isBelow b.root l then .ok l else .error .outside

/-- The first desk: nothing is on it, and the workspace is there. -/
def start (b : Workbench) (files : FileTree) : Desk × Option Breakdown :=
  if b.settings.workspace.hasNul then (.empty files, some .nulInPath)
  else
    match files.makeFoldersWithin b.stack.calls b.workingFolder b.settings.workspace with
    | none => (.empty files, some .stackExhausted)
    | some (files, fault) => (.empty files, fault.map .fault)

/-! ## Commands -/

/-- The engine that a tool is put to work with. -/
def newEngine (b : Workbench) (tool : Tool) : Engine :=
  .new b.settings b.stack tool

/-- Puts a tool to work. -/
def select (b : Workbench) (d : Desk) (name : String) : Outcome :=
  match Tool.ofAlias? name with
  | none => d.refuse (.unknownTool name)
  | some tool =>
    let e := b.newEngine tool
    ⟨{ d with tool := some tool, engine := some e, compiled := none }, [.selected tool],
      .ok (.selected tool e.heading)⟩

/-- Loads a file of the workspace. -/
def load (b : Workbench) (d : Desk) (name : String) : Outcome :=
  match d.engine with
  | none => d.refuse .noTool
  | some _ =>
    match b.place name with
    | .error .nul => d.breakDown .nulInPath
    | .error .outside => d.refuse (.escapes name)
    | .ok l =>
      let file := Path.ofLocation l
      match d.files.isFile b.workingFolder file with
      | .error f => d.refuse (.notLoaded (.fault f))
      | .ok false => d.refuse (.notFound name)
      | .ok true =>
        match d.files.readText b.workingFolder file with
        | .error f => d.refuse (.notLoaded f)
        | .ok text =>
          ⟨{ d with currentFile := some name }, [.loaded file text.length],
            .ok (.loaded name (String.ofList text))⟩

/-- Saves a text as a file of the workspace, making the folders that are missing above it. -/
def save (b : Workbench) (d : Desk) (name text : String) : Outcome :=
  match b.place name with
  | .error .nul => d.breakDown .nulInPath
  | .error .outside => d.refuse (.escapes name)
  | .ok l =>
    let file := Path.ofLocation l
    match d.files.makeFoldersWithin b.stack.calls b.workingFolder file.parent with
    | none => d.breakDown .stackExhausted
    -- The folders that were made before the fault stay.
    | some (files, some f) => { d with files := files }.refuse (.notSaved f)
    | some (files, none) =>
      match files.write b.workingFolder file ⟨Text.Utf8.encode text.toList, b.moment⟩ with
      | .error f => { d with files := files }.refuse (.notSaved f)
      | .ok files =>
        ⟨{ d with files := files, currentFile := some name }, [.saved file text.length],
          .ok (.saved name)⟩

/-- Compiles a source with the engine. -/
def compile (b : Workbench) (d : Desk) (source : String) : Outcome :=
  match d.engine with
  | none => d.refuse .noTool
  | some e =>
    match e.compile b.stack source with
    | none => d.breakDown .stackExhausted
    | some a =>
      ⟨{ d with compiled := some a }, a.events, .ok (.compiled e.tool a.success a.report)⟩

/-- Executes what was compiled last. -/
def execute (_b : Workbench) (d : Desk) : Outcome :=
  match d.engine, d.compiled with
  | none, _ => d.refuse .noTool
  | some _, none => d.refuse .nothingCompiled
  | some e, some a =>
    match e.execute a with
    | .error f => d.breakDown f
    | .ok work => ⟨d, work.events, .ok (.executed work.success work.report)⟩

/-- Compiles a source and, if that went well, executes the result. -/
def compileAndExecute (b : Workbench) (d : Desk) (source : String) : Outcome :=
  let compiling := b.compile d source
  match compiling.answer with
  | .ok (.compiled tool true compiled) =>
    let executing := b.execute compiling.desk
    let answer : Except Breakdown Answer := match executing.answer with
      | .ok (.executed success executed) =>
        .ok (.compiledAndExecuted tool success (compiled ++ "\n\n" ++ executed))
      -- A refusal has no result to report.
      | .ok _ => .error .noResult
      | .error f => .error f
    ⟨executing.desk, compiling.events ++ executing.events, answer⟩
  | _ => compiling

/-- The files among the names in the workspace. -/
def listings (b : Workbench) (d : Desk) : List String → Except Fault (List Listing)
  | [] => .ok []
  | name :: names =>
    let file := b.settings.workspace.child name
    match d.files.isFile b.workingFolder file with
    | .error f => .error f
    | .ok isFile =>
      match b.listings d names with
      | .error f => .error f
      | .ok more =>
        -- Folders are left out.
        match isFile, d.files.entry b.workingFolder file with
        | true, .ok (.file f) => .ok (⟨name, f.bytes.length, f.modified, kindOf name⟩ :: more)
        | _, _ => .ok more

/-- Lists the files that lie directly in the workspace. -/
def list (b : Workbench) (d : Desk) : Outcome :=
  match d.files.list b.workingFolder b.settings.workspace with
  | .error f => d.refuse (.notListed f)
  | .ok names =>
    match b.listings d names with
    | .error f => d.refuse (.notListed f)
    | .ok files => ⟨d, [], .ok (.listed files)⟩

/-- Writes a sample program into the workspace. -/
def createSample (b : Workbench) (d : Desk) (tool name : String) : Outcome :=
  let tool := ((Tool.ofAlias? tool).map (·.name)).getD tool
  match b.samples.sampleOf tool name with
  -- A library that cannot be listed is taken for a file that cannot be saved.
  | .error (.broken (.fault f)) => d.refuse (.notSaved f)
  | .error (.broken f) => d.breakDown f
  | .error (.refused f) => d.refuse (.noSample f)
  | .ok s =>
    match b.place s.fileName with
    | .error .nul => d.breakDown .nulInPath
    | .error .outside => d.refuse (.escapes s.fileName)
    | .ok l =>
      let file := Path.ofLocation l
      match d.files.write b.workingFolder file ⟨Text.Utf8.encode s.source.toList, b.moment⟩ with
      | .error f => d.refuse (.notSaved f)
      | .ok files => ⟨{ d with files := files }, [.sampled s.tool s.name file], .ok (.sampled s)⟩

/-- Gives help on a tool, or on the workbench if no tool of that name is known. -/
def help (_b : Workbench) (d : Desk) (tool : Option String) : Outcome :=
  ⟨d, [], .ok (.help (HelpPage.on (tool.bind Tool.ofAlias?)))⟩

/-- How the workbench stands. -/
def status (b : Workbench) (d : Desk) : Status where
  tool := (d.tool.map (·.title)).getD "None"
  currentFile := (d.currentFile.filter (· != "")).getD "None"
  workspace := b.settings.workspace.text
  compiled := d.compiled.isSome

/-! ## Sequences of commands -/

/-- A command. -/
inductive Command
  | select (name : String)
  | load (name : String)
  | save (name text : String)
  | compile (source : String)
  | execute
  | compileAndExecute (source : String)
  | list
  | createSample (tool name : String)
  | help (tool : Option String)
  deriving DecidableEq, Repr

/-- Carries out a command. -/
def perform (b : Workbench) (d : Desk) : Command → Outcome
  | .select name => b.select d name
  | .load name => b.load d name
  | .save name text => b.save d name text
  | .compile source => b.compile d source
  | .execute => b.execute d
  | .compileAndExecute source => b.compileAndExecute d source
  | .list => b.list d
  | .createSample tool name => b.createSample d tool name
  | .help tool => b.help d tool

/-- The desk after a sequence of commands. A breakdown does not keep the next command from being
carried out. -/
def performAll (b : Workbench) (d : Desk) (cs : List Command) : Desk :=
  cs.foldl (fun d c => (b.perform d c).desk) d

/-! ## What commands leave alone -/

/-- A place in the workspace is strictly below its root. -/
theorem isBelow_of_place {b : Workbench} {name : String} {l : Location}
    (h : b.place name = .ok l) : Location.isBelow b.root l = true := by
  simp only [place] at h
  split at h
  · cases h
  · split at h
    · rename_i hl
      cases h
      exact hl
    · cases h

/-- Executing leaves the desk as it was. -/
theorem desk_execute (b : Workbench) (d : Desk) : (b.execute d).desk = d := by
  unfold execute
  split
  · rfl
  · rfl
  · split <;> rfl

/-- Compiling changes nothing but what was compiled last, if the engine made anything. -/
theorem desk_compile (b : Workbench) (d : Desk) (source : String) :
    (b.compile d source).desk
      = { d with compiled := (d.engine.bind (·.compile b.stack source)).or d.compiled } := by
  unfold compile
  split
  · rename_i h
    rw [h]
    cases d
    cases h
    rfl
  · rename_i e h
    split
    · rename_i hmade
      rw [h]
      cases d
      cases h
      simp only [Option.bind_some, hmade, Option.none_or]
      rfl
    · rename_i a hmade
      simp only [h, Option.bind_some, hmade, Option.some_or]

/-- Compiling and executing in one command leaves the desk as compiling does. -/
theorem desk_compileAndExecute (b : Workbench) (d : Desk) (source : String) :
    (b.compileAndExecute d source).desk = (b.compile d source).desk := by
  unfold compileAndExecute
  simp only
  split
  · exact b.desk_execute _
  · rfl

/-- Listing leaves the desk as it was. -/
theorem desk_list (b : Workbench) (d : Desk) : (b.list d).desk = d := by
  unfold list
  split
  · rfl
  · split <;> rfl

/-- Loading changes nothing but the file worked on. -/
theorem desk_load (b : Workbench) (d : Desk) (name : String) :
    (b.load d name).desk = d ∨ (b.load d name).desk = { d with currentFile := some name } := by
  unfold load
  split
  · exact .inl rfl
  · split
    · exact .inl rfl
    · exact .inl rfl
    · simp only
      split
      · exact .inl rfl
      · exact .inl rfl
      · split
        · exact .inl rfl
        · exact .inr rfl

end Workbench

end TurboBench.Shell
