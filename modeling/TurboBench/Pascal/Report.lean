import TurboBench.Banner
import TurboBench.Pascal.Session

/-!
The reports on a compilation and on a run.
-/

namespace TurboBench.Pascal

open TurboBench.Banner (runHeading indented)
open TurboBench.Text (joinLines)

/-- The heading of the compiler. -/
def compilerHeading : String :=
  Banner.heading "Turbo Pascal 7.0" "1983-1992" "Compiling..."

/-- A titled list with an empty line before it; nothing at all for an empty list. -/
def section_ (title : String) (items : List String) : List String :=
  if items.isEmpty then [] else ["", title] ++ items

/-- The report on a compilation. -/
def CompileResult.report (r : CompileResult) : String :=
  joinLines <| compilerHeading :: match r.program with
    | none => "Compilation failed with errors:" :: indented r.errors "  "
    | some p =>
      ["Compilation successful.", s!"Program: {p.name}", s!"Statements: {r.statementCount}"]
        ++ section_ "Variables:" (p.declarations.map fun d => s!"  {d.name}: {d.type.name}")
        ++ section_ "Warnings:" (indented r.warnings "  ")

/-- The report on a run. -/
def RunResult.report (r : RunResult) : String :=
  joinLines <| runHeading ++ ["Program output:"] ++ indented r.output "  " ++ [""]
    ++ (if r.warnings.isEmpty then [] else ["Warnings:"] ++ indented r.warnings "  " ++ [""])
    ++ [s!"Statements executed: {r.steps}"]
    ++ section_ "Final variables:" (r.finalValues.map fun (name, v) => s!"  {name} = {shown v}")

end TurboBench.Pascal
