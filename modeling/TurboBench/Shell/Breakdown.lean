import TurboBench.Files.Access
import TurboBench.Shell.Tool

/-!
Breakdowns.

Most of what can go wrong is refused with a message of its own, and the workbench goes on. A
breakdown is the rest: what a part of the workbench does not expect and hands on, so that it ends
the command that met it. The list of its cases is the list of all such failures, as far as texts
are made of whole characters, without half of a surrogate pair among them, and files are dated
within the years of the calendar.
-/

namespace TurboBench.Shell

open TurboBench.Files (Fault)
open TurboBench.Text.Utf8 (Flaw)

/-- A failure that ends a command. -/
inductive Breakdown
  | fault (f : Fault)
  | notText (f : Flaw)
  | nulInPath
  | noHome
  | numeralTooLong (digits limit : Nat)
  | arrayTooDeep
  | objectTooDeep
  | noPath
  | noFileName
  | noSampleName
  | stackExhausted
  | foreignArtifact (made : Tool)
  | noResult
  deriving DecidableEq, Repr

/-- The wording of a breakdown. -/
def Breakdown.text : Breakdown → String
  | .fault f => f.text
  | .notText f => f.text
  | .nulInPath => "embedded null byte"
  | .noHome => "Could not determine home directory."
  | .numeralTooLong digits limit =>
    s!"Exceeds the limit ({limit} digits) for integer string conversion: value has {digits} "
      ++ "digits; use sys.set_int_max_str_digits() to increase the limit"
  | .arrayTooDeep =>
    "maximum recursion depth exceeded while decoding a JSON array from a unicode string"
  | .objectTooDeep =>
    "maximum recursion depth exceeded while decoding a JSON object from a unicode string"
  | .noPath => "expected str, bytes or os.PathLike object, not list"
  | .noFileName => "unsupported operand type(s) for /: 'PosixPath' and 'list'"
  | .noSampleName => "'list' object has no attribute 'strip'"
  | .stackExhausted => "maximum recursion depth exceeded"
  | .foreignArtifact .assembler => "'AssemblyResult' object has no attribute 'program'"
  | .foreignArtifact .pascal => "'CompileResult' object has no attribute 'object_code'"
  | .noResult => "'result'"

/-- A failure: refused with a reason, or a breakdown. -/
inductive Failure (ρ : Type)
  | refused (reason : ρ)
  | broken (b : Breakdown)
  deriving DecidableEq, Repr

end TurboBench.Shell
