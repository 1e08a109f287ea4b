import TurboBench.Text.Blank
import TurboBench.Text.Case

/-!
The two tools of the workbench, and the names they go by.

A tool has one proper name, which also names its folder of samples, and other names that users
may type. Only the latter are read without regard to case and to blanks around them.
-/

namespace TurboBench.Shell

open TurboBench.Text (trim lower)

/-- The name under which the workbench is started. -/
def programName : String := "retroemu"

/-- A tool. -/
inductive Tool
  | assembler
  | pascal
  deriving DecidableEq, Repr

namespace Tool

/-- Both tools. -/
def all : List Tool := [.assembler, .pascal]

/-- The proper name. -/
def name : Tool → String
  | .assembler => "asm"
  | .pascal => "pascal"

/-- The title in headings. -/
def title : Tool → String
  | .assembler => "Turbo Assembler 3.0"
  | .pascal => "Turbo Pascal 7.0"

/-- What the names of its source files end in. -/
def extension : Tool → String
  | .assembler => ".asm"
  | .pascal => ".pas"

/-- The tool of a proper name. -/
def ofName? (s : String) : Option Tool :=
  all.find? (·.name == s)

/-- The names that users may type. -/
def aliases : List (String × Tool) := [
  ("asm", .assembler), ("assembler", .assembler), ("x86", .assembler),
  ("pascal", .pascal), ("turbopascal", .pascal), ("tp", .pascal)]

/-- The tool that a user means. -/
def ofAlias? (s : String) : Option Tool :=
  aliases.lookup (String.ofList (lower (trim s.toList)))

/-- Every tool is found by its proper name. -/
theorem ofName?_name (t : Tool) : ofName? t.name = some t := by
  cases t <;> decide

theorem name_of_ofName? {s : String} {t : Tool} (h : ofName? s = some t) : t.name = s := by
  simpa using List.find?_some h

end Tool

end TurboBench.Shell
