import TurboBench.Main
import TurboBench.Proofs.Asm.TwoPasses
import TurboBench.Proofs.Asm.StepLimit
import TurboBench.Proofs.Asm.ControlFlow
import TurboBench.Proofs.Asm.LabelUse
import TurboBench.Proofs.Asm.WordSize
import TurboBench.Proofs.Asm.SymbolTables
import TurboBench.Proofs.Asm.Stack
import TurboBench.Proofs.Asm.Refusals
import TurboBench.Proofs.Asm.Footprints
import TurboBench.Proofs.Asm.TwosComplement
import TurboBench.Proofs.Asm.BitMasks
import TurboBench.Proofs.Asm.OffsetLoads
import TurboBench.Proofs.Asm.ByteStrings
import TurboBench.Proofs.Asm.Edits
import TurboBench.Proofs.Asm.JoinedArguments
import TurboBench.Proofs.Asm.OperandClasses
import TurboBench.Proofs.Pascal.StepLimit
import TurboBench.Proofs.Pascal.RoundTrip
import TurboBench.Proofs.Pascal.Safety
import TurboBench.Proofs.Pascal.Breakpoints
import TurboBench.Proofs.Pascal.Termination
import TurboBench.Proofs.Pascal.Verdict
import TurboBench.Proofs.Pascal.Comments
import TurboBench.Proofs.Pascal.ErrorIsolation
import TurboBench.Proofs.Pascal.CaseInsensitive
import TurboBench.Proofs.Pascal.OutputLines
import TurboBench.Proofs.Pascal.Atomicity
import TurboBench.Proofs.Shell.Confinement
import TurboBench.Proofs.Shell.SaveAndLoad
import TurboBench.Proofs.Shell.FailedSaves
import TurboBench.Proofs.Shell.Sessions
import TurboBench.Proofs.Shell.Reports
import TurboBench.Proofs.Shell.LoadedSettings
import TurboBench.Proofs.Pascal.Division
import TurboBench.Proofs.Pascal.ValuesInRange
import TurboBench.Proofs.Pascal.StringLiterals
import TurboBench.Proofs.Pascal.NearestInteger
import TurboBench.Proofs.Pascal.CountingLoops
import TurboBench.Proofs.Pascal.PrintedFields
import TurboBench.Proofs.Pascal.StatementCounts
