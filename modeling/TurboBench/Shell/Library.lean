import TurboBench.Shell.Breakdown
import TurboBench.Shell.Bundled

/-!
Libraries of sample programs.

A library is a folder with one folder for each tool, named like it; the samples of a tool are what
lies in its folder under a name with the extension of the tool. The name of a sample is the name
of its file without the extension, unless there is nothing in front of that. Samples are asked for
with small letters only, so that one whose name has a capital letter is listed and never found.
-/

namespace TurboBench.Shell

open TurboBench.Files (Path Location FileTree Fault)
open TurboBench.Text (trim lower)

/-- A library: a tree of files, the folder that relative paths start from, and the path of the
library. -/
structure Library where
  files : FileTree
  workingFolder : Location
  root : Path

/-- A sample program. -/
structure Sample where
  tool : Tool
  name : String
  fileName : String
  source : String
  deriving DecidableEq, Repr

/-- Why there is no such sample. -/
inductive SampleFlaw
  | unknownTool (tool : String)
  | unknownName (tool : Tool) (name : String)
  | unreadable (fileName : String) (f : Fault)
  deriving DecidableEq, Repr

/-- The wording of why there is no such sample. -/
def SampleFlaw.text : SampleFlaw → String
  | .unknownTool tool => s!"Unknown sample type: {tool}"
  | .unknownName tool name => s!"Unknown sample type: {tool.name}/{name}"
  | .unreadable fileName f => s!"Failed to read sample {fileName}: {f.text}"

namespace Library

/-- The name of the sample in a file, if the file has the extension of the tool. -/
def sampleName? (tool : Tool) (fileName : String) : Option String :=
  let cs := fileName.toList
  let ending := tool.extension.toList
  if ending.isSuffixOf cs then
    some (if cs.length = ending.length then fileName
      else String.ofList (cs.take (cs.length - ending.length)))
  else none

/-- The names of the samples for a tool, in ascending order. -/
def names (l : Library) (tool : Tool) : Except Breakdown (List String) :=
  let folder := l.root.child tool.name
  match l.files.isFolder l.workingFolder folder with
  | .error f => .error (.fault f)
  | .ok false => .ok []
  | .ok true =>
    match l.files.list l.workingFolder folder with
    | .error f => .error (.fault f)
    | .ok files => .ok ((files.filterMap (sampleName? tool)).mergeSort fun a b => decide (a ≤ b))

/-- The sample that a user asks for. -/
def sample (l : Library) (tool : Tool) (name : String) : Except (Failure SampleFlaw) Sample :=
  let key := String.ofList (lower (trim name.toList))
  match l.names tool with
  | .error b => .error (.broken b)
  | .ok names =>
    if names.contains key then
      let fileName := key ++ tool.extension
      match l.files.readText l.workingFolder ((l.root.child tool.name).child fileName) with
      | .error (.fault f) => .error (.refused (.unreadable fileName f))
      | .error (.notText f) => .error (.broken (.notText f))
      | .ok text => .ok ⟨tool, key, fileName, String.ofList text⟩
    else .error (.refused (.unknownName tool name))

/-- The names of the samples for the tool of a proper name. -/
def namesOf (l : Library) (tool : String) : Except (Failure SampleFlaw) (List String) :=
  match Tool.ofName? tool with
  | none => .error (.refused (.unknownTool tool))
  | some t =>
    match l.names t with
    | .error b => .error (.broken b)
    | .ok names => .ok names

/-- The sample that a user asks for, for the tool of a proper name. -/
def sampleOf (l : Library) (tool name : String) : Except (Failure SampleFlaw) Sample :=
  match Tool.ofName? tool with
  | none => .error (.refused (.unknownTool tool))
  | some t => l.sample t name

/-- A file of text. -/
def textFile (text : String) : Files.Entry :=
  .file ⟨Text.Utf8.encode text.toList, 0⟩

/-- The samples that the workbench comes with. -/
def bundled : Library where
  files := ⟨Tool.all.flatMap fun t =>
    ([t.name], .folder) ::
      (Bundled.samples t).map fun (name, text) => ([t.name, name ++ t.extension], textFile text)⟩
  workingFolder := []
  root := .ofLocation []

end Library

end TurboBench.Shell
