import TurboBench.Banner
import TurboBench.Asm.Execution

/-!
The reports on an assembly and on a run of it.

The listing and the tables of names are in the order of their addresses, which is the order in
which the source defines them.
-/

namespace TurboBench.Asm

open TurboBench.Banner (heading runHeading indented hexWord)
open TurboBench.Text (joinLines hexAddress alignLeft)

/-- The heading of the assembler. -/
def assemblerHeading : String :=
  heading "Turbo Assembler 3.0" "1989-1992" "Assembling file..."

/-- A table of names with a title and an empty line before it; nothing for an empty table. -/
def SymbolTable.report (title : String) (table : SymbolTable) : List String :=
  if table.isEmpty then []
  else ["", title] ++ table.map fun (name, n) => s!"  {alignLeft 16 name} {hexAddress n}"

/-- A line of the listing. -/
def Record.listing (r : Record) : String :=
  s!"  {hexAddress r.address}: {r.hexBytes}  ; {r.source}"

/-- The report on an assembly. -/
def Assembly.report (a : Assembly) : String :=
  joinLines <| assemblerHeading ::
    if a.success then
      ["Assembly completed successfully.", s!"Object code size: {a.codeSize} bytes", ""]
        ++ (if a.warnings.isEmpty then [] else ["Warnings:"] ++ indented a.warnings "  " ++ [""])
        ++ ["Object code:"] ++ a.records.map (·.listing)
        ++ SymbolTable.report "Symbols:" a.labels
        ++ SymbolTable.report "Data:" a.dataSymbols
    else
      ["Assembly failed with errors:"] ++ indented (a.errors.map (·.text)) "  "
        ++ (if a.warnings.isEmpty then [] else ["", "Warnings:"] ++ indented a.warnings "  ")

/-- The report on a run. -/
def RunResult.report (r : RunResult) : String :=
  joinLines <| runHeading ++ ["Registers:"]
    ++ registerNames.map (fun name =>
      let title := String.ofList (name.toList.map Char.toUpper)
      s!"  {title}: {hexWord ((r.registers.lookup name).getD 0)}")
    ++ ["", "Program output:"] ++ indented r.output "  "
    ++ ["", s!"Instructions executed: {r.executed}"]

end TurboBench.Asm
