import TurboBench.Shell.Tool
import TurboBench.Text.Lines

/-!
The help of the workbench: a page on each tool, and one on the workbench itself.
-/

namespace TurboBench.Shell

open TurboBench.Text (joinLines)

/-- A page of help. -/
structure HelpPage where
  title : String
  body : String
  deriving DecidableEq, Repr

namespace HelpPage

/-- What the page on the assembler says. -/
def assemblerLines : List String := [
  "Available commands:",
  s!"  {programName} run asm <filename>      - Assemble and execute a file",
  s!"  {programName} compile asm <filename>  - Assemble only",
  s!"  {programName} sample asm <type>       - Create a sample program",
  "",
  "Sample types:",
  "  hello - Hello World program",
  "  add - Simple addition program",
  "  factorial - Factorial by repeated addition",
  "",
  "Supported directives:",
  "  .model, .stack, .data, .code, db/dw/dd, end",
  "",
  "Supported instructions:",
  "  mov, add, sub, cmp, jmp, je, jne, call, ret, int, push, pop"]

/-- What the page on the compiler says. -/
def pascalLines : List String := [
  "Available commands:",
  s!"  {programName} run pascal <filename>      - Compile and execute a file",
  s!"  {programName} compile pascal <filename>  - Compile only",
  s!"  {programName} sample pascal <type>       - Create a sample program",
  "",
  "Sample types:",
  "  hello - Hello World program",
  "  factorial - Factorial calculation",
  "  calculator - Simple calculator",
  "",
  "Supported statements:",
  "  write, writeln, read, readln, if, while, for, repeat, case, assignment",
  "",
  "Supported types:",
  "  integer, real, boolean, char, string"]

/-- What the page on the workbench says. -/
def generalLines : List String := [
  "Available emulators:",
  "  asm - Turbo Assembler 3.0 (x86)",
  "  pascal - Turbo Pascal 7.0",
  "",
  "General commands:",
  s!"  {programName} run <emulator> <filename>      - Load, compile and execute a file",
  s!"  {programName} compile <emulator> <filename>  - Compile only",
  s!"  {programName} sample <emulator> <type>       - Create a sample program",
  s!"  {programName} help [emulator]                - Show emulator help",
  s!"  {programName} list                           - List workspace files"]

/-- The page on a tool, or on the workbench. -/
def on : Option Tool → HelpPage
  | some .assembler => ⟨s!"{Tool.assembler.title} Help", joinLines assemblerLines⟩
  | some .pascal => ⟨s!"{Tool.pascal.title} Help", joinLines pascalLines⟩
  | none => ⟨"Emulation Manager Help", joinLines generalLines⟩

end HelpPage

end TurboBench.Shell
