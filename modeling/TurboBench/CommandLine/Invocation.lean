import TurboBench.CommandLine.Grammar
import TurboBench.Files.Path

/-!
What a command line asks for.

A command line has switches of the workbench, then a verb and what belongs to it. The words from
the verb on have a grammar of their own, one for each verb, in which only help is a switch. Words
that neither grammar has a use for are refused, those in front of the verb being named first.
-/

namespace TurboBench.CommandLine

open TurboBench.Files (Path)

/-- A verb: what the workbench can be asked to do. -/
inductive Verb
  | run
  | compile
  | sample
  | list
  | help
  deriving DecidableEq, Repr

namespace Verb

/-- All verbs. -/
def all : List Verb := [.run, .compile, .sample, .list, .help]

/-- The word of a verb. -/
def name : Verb → String
  | .run => "run"
  | .compile => "compile"
  | .sample => "sample"
  | .list => "list"
  | .help => "help"

/-- The verb of a word. -/
def ofName? (s : String) : Option Verb :=
  all.find? (·.name == s)

/-- What belongs to a verb. -/
def slots : Verb → List Slot
  | .run | .compile => [⟨"emulator", .one⟩, ⟨"filename", .one⟩]
  | .sample => [⟨"emulator", .one⟩, ⟨"name", .one⟩]
  | .list => []
  | .help => [⟨"emulator", .optional⟩]

/-- The grammar of the words behind a verb. -/
def grammar (v : Verb) : Grammar :=
  ⟨[.help], v.slots⟩

/-- Every verb is found by its word. -/
theorem ofName?_name (v : Verb) : ofName? v.name = some v := by
  cases v <;> decide

end Verb

/-- The slot that a verb and what belongs to it fill. -/
def verbSlot : String := "command"

/-- The grammar of a whole command line. -/
def mainGrammar : Grammar :=
  ⟨[.help, .workspace, .config, .verbose, .quiet], [⟨verbSlot, .rest⟩]⟩

/-- What a switch for a path says: it is not used, it is used without a path, or it gives one. -/
inductive PathChoice
  | unused
  | pathless
  | path (p : Path)
  deriving DecidableEq, Repr

/-- The choice that a switch for a path makes with a value. -/
def PathChoice.ofValue : Option String → PathChoice
  | none => .pathless
  | some text => .path (Path.ofString text)

/-- What the switches of the workbench say. -/
structure Choices where
  workspace : PathChoice
  config : PathChoice
  verbosity : Nat
  quiet : Bool
  deriving DecidableEq, Repr

namespace Choices

/-- What no switch says. -/
def none : Choices := ⟨.unused, .unused, 0, false⟩

/-- The choices with one more switch. Of several values the last one counts. -/
def add (c : Choices) : Switch × Option String → Choices
  | (.workspace, value) => { c with workspace := .ofValue value }
  | (.config, value) => { c with config := .ofValue value }
  | (.verbose, _) => { c with verbosity := c.verbosity + 1 }
  | (.quiet, _) => { c with quiet := true }
  | (.help, _) => c

/-- What switches say. -/
def of (switches : List (Switch × Option String)) : Choices :=
  switches.foldl add .none

end Choices

/-- What the workbench is asked to do. The name of a file or a sample may be left out. -/
inductive Request
  | run (tool : String) (file : Option String)
  | compile (tool : String) (file : Option String)
  | sample (tool : String) (name : Option String)
  | list
  | help (tool : Option String)
  deriving DecidableEq, Repr

/-- The request that a verb makes with what fills its slots. -/
def Request.of (v : Verb) (filled : List (List String)) : Request :=
  let word? (n : Nat) : Option String := (filled.getD n []).head?
  -- Two hyphens are never taken out of what fills the first slot but as the separator in front.
  let tool := (word? 0).getD ""
  match v with
  | .run => .run tool (word? 1)
  | .compile => .compile tool (word? 1)
  | .sample => .sample tool (word? 1)
  | .list => .list
  | .help => .help (word? 0)

/-- The file of the workspace that a request reads. -/
def Request.fileName? : Request → Option String
  | .run _ file | .compile _ file => file
  | .sample .. | .list | .help _ => none

/-- What a command line asks for. -/
structure Invocation where
  choices : Choices
  request : Request
  deriving DecidableEq, Repr

/-- Why a command line is not carried out, and on behalf of which verb, if it is not the whole
line. -/
structure Interruption where
  verb : Option Verb
  halt : Halt
  deriving DecidableEq, Repr

/-- Reads a command line. -/
def Invocation.read (line : List String) : Except Interruption Invocation :=
  match mainGrammar.parse line with
  | .error h => .error ⟨none, h⟩
  | .ok said =>
    match said.filled.flatten with
    | [] => .error ⟨none, .complaint (.missing [verbSlot])⟩
    | word :: words =>
      match Verb.ofName? word with
      | none =>
        .error ⟨none, .complaint (.invalidChoice verbSlot word (Verb.all.map (·.name)))⟩
      | some v =>
        match v.grammar.parse words with
        | .error h => .error ⟨some v, h⟩
        | .ok more =>
          let leftOver := said.leftOver ++ more.leftOver
          if leftOver.isEmpty then .ok ⟨.of said.switches, .of v more.filled⟩
          else .error ⟨none, .complaint (.unrecognized leftOver)⟩

end TurboBench.CommandLine
