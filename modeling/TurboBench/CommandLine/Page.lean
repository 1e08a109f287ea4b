import TurboBench.CommandLine.Invocation
import TurboBench.Shell.Tool
import TurboBench.Text.Field

/-!
What is printed about command lines: usage, and pages of help.

A page is made of sections, each a list of terms with descriptions in a column of their own. A term
that reaches into the column has its description on the next line.
-/

namespace TurboBench.CommandLine

open TurboBench.Text (blanks alignLeft)

/-- A term with its description, which starts at a column; `indentation` blanks stand in front. -/
def entry (indentation column : Nat) (term description : String) : List String :=
  let lead := blanks indentation
  if description = "" then [lead ++ term]
  else if indentation + term.length + 2 ≤ column then
    [lead ++ alignLeft (column - indentation) term ++ description]
  else [lead ++ term, blanks column ++ description]

/-- The words with which a verb is started, or the whole workbench. -/
def startWords (v : Option Verb) : String :=
  match v with
  | none => Shell.programName
  | some v => s!"{Shell.programName} {v.name}"

/-- A slot as usage shows it. -/
def slotUsage (s : Slot) : String :=
  match s.arity with
  | .optional => "[" ++ s.name ++ "]"
  | .one | .rest => s.name

/-- The verbs as usage shows them. -/
def verbChoices : String :=
  let names := ",".intercalate (Verb.all.map (·.name))
  "\x7b" ++ names ++ "\x7d"

/-- How to call a verb, or the whole workbench. -/
def usage : Option Verb → List String
  | none => [
    s!"usage: {Shell.programName} [-h] [--workspace WORKSPACE] [--config CONFIG] [--verbose]",
    "                [--quiet]",
    s!"                {verbChoices} ..."]
  | some v => [" ".intercalate (s!"usage: {startWords (some v)} [-h]" :: v.slots.map slotUsage)]

/-- What a verb does. -/
def Verb.description : Verb → String
  | .run => "Compile and execute a workspace file"
  | .compile => "Compile a workspace file without running it"
  | .sample => "Write a sample program into the workspace"
  | .list => "List workspace files"
  | .help => "Show emulator help"

/-- What fills a slot of a verb. -/
def slotDescription (v : Verb) (slot : String) : String :=
  match v, slot with
  | .help, _ => ""
  | _, "emulator" => "asm or pascal"
  | .sample, "name" => "Sample name, e.g. hello"
  | _, _ => ""

/-- The entry for the switch that prints the page. -/
def helpEntry (column : Nat) : List String :=
  entry 2 column "-h, --help" "show this help message and exit"

/-- The page of help on the workbench. -/
def mainPage : List String :=
  let column := 24
  usage none ++ ["", "Turbo Assembler 3.0 and Turbo Pascal 7.0 simulation", "",
      "positional arguments:"]
    ++ entry 2 column verbChoices ""
    ++ Verb.all.flatMap (fun v => entry 4 column v.name v.description)
    ++ ["", "options:"] ++ helpEntry column
    ++ entry 2 column "--workspace WORKSPACE" "Workspace directory for source files"
    ++ entry 2 column "--config CONFIG" "JSON configuration file"
    ++ entry 2 column "--verbose, -v" "Increase verbosity (-v, -vv)"
    ++ entry 2 column "--quiet, -q" "Only report errors"

/-- The page of help on a verb. -/
def verbPage (v : Verb) : List String :=
  let column := 14
  usage (some v)
    ++ (if v.slots.isEmpty then [] else
      ["", "positional arguments:"]
        ++ v.slots.flatMap fun s => entry 2 column s.name (slotDescription v s.name))
    ++ ["", "options:"] ++ helpEntry column

/-- A page of help. -/
def page : Option Verb → List String
  | none => mainPage
  | some v => verbPage v

/-- What is printed about a complaint. -/
def complaintLines (v : Option Verb) (c : Complaint) : List String :=
  usage v ++ [s!"{startWords v}: error: {c.text}"]

end TurboBench.CommandLine
