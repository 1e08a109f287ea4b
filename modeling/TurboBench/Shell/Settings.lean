import TurboBench.Json.Reader
import TurboBench.Shell.Breakdown
import TurboBench.Stack

/-!
The settings of the workbench, and where they come from.

A settings file is a JSON object. It may name the workspace, relative to the folder of the file,
and it may give each of the numbers, within bounds; it must hold nothing else. The file is named
on the command line or by an environment variable. Another variable names the workspace and goes
before the file. What neither gives has a default.

A file with several faults is refused for the first one in a fixed order: names that are no
settings, the workspace, then the numbers in the order of `Setting.all`.
-/

namespace TurboBench.Shell

open TurboBench.Files (Path Location FileTree Fault ReadFlaw)
open TurboBench.Text (trim)

/-! ## Surroundings -/

/-- What a command finds: the folder one works in, the environment variables, the home folder that
the system knows of for the present user, those of other users, and the stack that it works on. -/
structure Surroundings where
  workingFolder : Location
  environment : List (String × String)
  ownHome : Option String
  homes : List (String × String)
  stack : Stack
  deriving DecidableEq, Repr

namespace Surroundings

/-- The value of an environment variable, unless it is empty. -/
def lookUp (s : Surroundings) (name : String) : Option String :=
  (s.environment.lookup name).filter (· != "")

/-- The home folder of a user, the present one if no name is given. The system is asked for that of
the present user only if the environment names none. -/
def home? (s : Surroundings) (user : String) : Option String :=
  if user = "" then (s.environment.lookup "HOME").or s.ownHome else s.homes.lookup user

/-- A path without the slashes at its end; slashes alone are the root. -/
def withoutSlashes (folder : String) : String :=
  let cs := (folder.toList.reverse.dropWhile (· == '/')).reverse
  if cs.isEmpty then "/" else String.ofList cs

/-- The path with its first step replaced by a home folder, if it is a tilde with or without the
name of a user. -/
def expandHome (s : Surroundings) (p : Path) : Except Breakdown Path :=
  match p.isAbsolute, p.steps with
  | false, step :: steps =>
    match step.toList with
    | '~' :: user =>
      if user.contains '\x00' then .error .nulInPath
      else
        match (s.home? (String.ofList user)).map withoutSlashes with
        | none => .error .noHome
        | some home =>
          if home.toList.head? = some '~' then .error .noHome
          else
            let h := Path.ofString home
            .ok { h with steps := h.steps ++ steps }
    | _ => .ok p
  | _, _ => .ok p

/-- A path from the root stays as it is. -/
theorem expandHome_of_isAbsolute (s : Surroundings) {p : Path} (h : p.isAbsolute = true) :
    s.expandHome p = .ok p := by
  simp [expandHome, h]

end Surroundings

/-! ## Settings -/

/-- A setting that is a number. -/
inductive Setting
  | assemblerSteps
  | pascalSteps
  | memoryDump
  deriving DecidableEq, Repr

namespace Setting

/-- All settings that are numbers, in the order in which they are checked. -/
def all : List Setting := [.assemblerSteps, .pascalSteps, .memoryDump]

/-- The name in a settings file. -/
def key : Setting → String
  | .assemblerSteps => "asm_step_limit"
  | .pascalSteps => "pascal_step_limit"
  | .memoryDump => "memory_dump_size"

/-- The least value. -/
def low : Setting → Int
  | .assemblerSteps => 1
  | .pascalSteps => 1
  | .memoryDump => 0

/-- The greatest value. -/
def high : Setting → Int
  | .assemblerSteps => 1000000
  | .pascalSteps => 10000000
  | .memoryDump => 0x10000

/-- The value where none is given. -/
def default : Setting → Int
  | .assemblerSteps => 1000
  | .pascalSteps => 10000
  | .memoryDump => 256

/-- Whether a value is within the bounds of a setting. -/
def admits (s : Setting) (n : Int) : Bool :=
  s.low ≤ n && n ≤ s.high

/-- The defaults are within their bounds. -/
theorem admits_default (s : Setting) : s.admits s.default = true := by
  cases s <;> decide

theorem mem_all (s : Setting) : s ∈ all := by
  cases s <;> decide

end Setting

/-- The settings of a workbench. -/
structure Settings where
  workspace : Path
  assemblerSteps : Int
  pascalSteps : Int
  memoryDump : Int
  deriving DecidableEq, Repr

namespace Settings

/-- The settings where none are given. -/
def default : Settings :=
  ⟨⟨.workingFolder, ["workspace"]⟩, Setting.assemblerSteps.default, Setting.pascalSteps.default,
    Setting.memoryDump.default⟩

/-- The value of a setting. -/
def get (s : Settings) : Setting → Int
  | .assemblerSteps => s.assemblerSteps
  | .pascalSteps => s.pascalSteps
  | .memoryDump => s.memoryDump

/-- The settings with another value for one of them. -/
def set (s : Settings) (setting : Setting) (n : Int) : Settings :=
  match setting with
  | .assemblerSteps => { s with assemblerSteps := n }
  | .pascalSteps => { s with pascalSteps := n }
  | .memoryDump => { s with memoryDump := n }

theorem get_set (s : Settings) (a b : Setting) (n : Int) :
    (s.set a n).get b = if b = a then n else s.get b := by
  cases a <;> cases b <;> rfl

@[simp] theorem workspace_set (s : Settings) (a : Setting) (n : Int) :
    (s.set a n).workspace = s.workspace := by
  cases a <;> rfl

theorem get_default (a : Setting) : default.get a = a.default := by
  cases a <;> rfl

end Settings

/-! ## Settings files -/

/-- Why a settings file is refused. -/
inductive SettingsFlaw
  | notFound (file : Path)
  | malformed (file : Path) (text : List Char) (flaw : Json.Flaw) (position : Nat)
  | unreadable (f : Fault)
  | notObject
  | unknownKeys (keys : List String)
  | blankWorkspace
  | notInteger (s : Setting)
  | outOfBounds (s : Setting)
  deriving DecidableEq, Repr

/-- The wording of what is wrong with a settings file. -/
def SettingsFlaw.text : SettingsFlaw → String
  | .notFound file => s!"Config file not found: {file.text}"
  | .malformed file text flaw position =>
    s!"Invalid JSON in {file.text}: {flaw.report text position}"
  | .unreadable f => s!"Failed to read config: {f.text}"
  | .notObject => "Config must be a JSON object."
  | .unknownKeys keys =>
    let names := ", ".intercalate keys
    s!"Unknown config keys: {names}"
  | .blankWorkspace => "workspace must be a non-empty string."
  | .notInteger s => s!"{s.key} must be an integer."
  | .outOfBounds s => s!"{s.key} must be between {s.low} and {s.high}."

namespace Settings

/-- The name of the workspace in a settings file. -/
def workspaceKey : String := "workspace"

/-- The names that a settings file may hold. -/
def knownKeys : List String :=
  workspaceKey :: Setting.all.map (·.key)

/-- The names in a settings file that are no settings, in ascending order. -/
def unknownKeys (members : List (String × Json.Value)) : List String :=
  (((members.map (·.1)).filter (!knownKeys.contains ·)).eraseDups).mergeSort
    fun a b => decide (a ≤ b)

/-- The workspace that a settings file names, if it does; `folder` is the folder of the file. -/
def readWorkspace (s : Surroundings) (folder : Path) (members : List (String × Json.Value)) :
    Except (Failure SettingsFlaw) (Option Path) :=
  match Json.member? members workspaceKey with
  | none | some .null => .ok none
  | some (.string name) =>
    if (trim name.toList).isEmpty then .error (.refused .blankWorkspace)
    else
      match s.expandHome (Path.ofString name) with
      | .error b => .error (.broken b)
      -- Joining leaves an absolute path as it is.
      | .ok p => .ok (some (folder.join p))
  | some _ => .error (.refused .blankWorkspace)

/-- The settings with the value that a settings file gives for one of them, if it does. -/
def readNumber (members : List (String × Json.Value)) (settings : Settings) (s : Setting) :
    Except SettingsFlaw Settings :=
  match Json.member? members s.key with
  | none => .ok settings
  | some (.integer n) => if s.admits n then .ok (settings.set s n) else .error (.outOfBounds s)
  | some _ => .error (.notInteger s)

/-- The settings with the values that a settings file gives for some of them. -/
def readNumbers (members : List (String × Json.Value)) :
    Settings → List Setting → Except SettingsFlaw Settings
  | settings, [] => .ok settings
  | settings, s :: ss =>
    match readNumber members settings s with
    | .error f => .error f
    | .ok settings => readNumbers members settings ss

/-- The settings that the members of a settings file make. -/
def ofMembers (s : Surroundings) (folder : Path) (members : List (String × Json.Value)) :
    Except (Failure SettingsFlaw) Settings :=
  let unknown := unknownKeys members
  if !unknown.isEmpty then .error (.refused (.unknownKeys unknown))
  else
    match readWorkspace s folder members with
    | .error f => .error f
    | .ok workspace =>
      let start := { default with workspace := workspace.getD default.workspace }
      match readNumbers members start Setting.all with
      | .error f => .error (.refused f)
      | .ok settings => .ok settings

/-- The settings that the text of a settings file makes. -/
def ofText (s : Surroundings) (file : Path) (text : List Char) :
    Except (Failure SettingsFlaw) Settings :=
  match Json.parse s.stack.calls text with
  | .ok (.object members) => ofMembers s file.parent members
  | .ok _ => .error (.refused .notObject)
  | .error (.malformed flaw position) => .error (.refused (.malformed file text flaw position))
  | .error (.numeralTooLong n) => .error (.broken (.numeralTooLong n Json.digitLimit))
  | .error .arrayTooDeep => .error (.broken .arrayTooDeep)
  | .error .objectTooDeep => .error (.broken .objectTooDeep)

/-- The settings in a file. -/
def ofFile (s : Surroundings) (files : FileTree) (file : Path) :
    Except (Failure SettingsFlaw) Settings :=
  match s.expandHome file with
  | .error b => .error (.broken b)
  | .ok p =>
    if p.hasNul then .error (.broken .nulInPath)
    else
      let file := Path.ofLocation (p.location s.workingFolder)
      match files.exists_ s.workingFolder file with
      | .error f => .error (.broken (.fault f))
      | .ok false => .error (.refused (.notFound file))
      | .ok true =>
        match files.readText s.workingFolder file with
        | .error (.fault f) => .error (.refused (.unreadable f))
        | .error (.notText f) => .error (.broken (.notText f))
        | .ok text => ofText s file text

/-! ## Loading -/

/-- The variable that names the settings file. -/
def fileVariable : String := "RETROEMU_CONFIG"

/-- The variable that names the workspace. -/
def workspaceVariable : String := "RETROEMU_WORKSPACE"

/-- The settings file in force: the one that is asked for, or the one that a variable names. -/
def file? (s : Surroundings) (asked : Option Path) : Option Path :=
  asked <|> (s.lookUp fileVariable).map Path.ofString

/-- The settings in force. -/
def load (s : Surroundings) (files : FileTree) (asked : Option Path) :
    Except (Failure SettingsFlaw) Settings :=
  match (file? s asked).elim (.ok default) (ofFile s files) with
  | .error f => .error f
  | .ok settings =>
    match s.lookUp workspaceVariable with
    | none => .ok settings
    | some name =>
      match s.expandHome (Path.ofString name) with
      | .error b => .error (.broken b)
      | .ok p => .ok { settings with workspace := p }

/-- Without a file and without variables the defaults are in force. -/
theorem load_default {s : Surroundings} (files : FileTree)
    (hf : s.lookUp fileVariable = none) (hw : s.lookUp workspaceVariable = none) :
    load s files none = .ok default := by
  simp [load, file?, hf, hw]

end Settings

end TurboBench.Shell
