import PacScript.Main
import PacScript.Scan.Trace
import PacScript.Template.Document
import PacScript.Proofs.Bytes
import PacScript.Proofs.Instruction.Layout
import PacScript.Proofs.Instruction.Reading
import PacScript.Proofs.Instruction.Decoding
import PacScript.Proofs.Scan.Course
import PacScript.Proofs.Scan.Tiling
import PacScript.Proofs.Scan.Markers
import PacScript.Proofs.Instruction.CutOff
import PacScript.Proofs.Instruction.Rewind
import PacScript.Proofs.Scan.HandOver
import PacScript.Proofs.Bytes.Cuts
import PacScript.Proofs.Instruction.Suffix
import PacScript.Proofs.Scan.Resumption
import PacScript.Proofs.Instruction.Relocation
import PacScript.Proofs.Scan.Extension
import PacScript.Proofs.Bytes.Tables
import PacScript.Proofs.Scan.Gaps
import PacScript.Proofs.Scan.Capture
import PacScript.Proofs.Template.Registry
import PacScript.Proofs.Scan.Agreement
import PacScript.Proofs.Instruction.Names
import PacScript.Proofs.Scan.Failing
import PacScript.Proofs.Flow.Growth
import PacScript.Proofs.Flow.Indices
import PacScript.Proofs.Flow.Arena
import PacScript.Proofs.Script.Occurrences
import PacScript.Proofs.Flow.Outline
import PacScript.Proofs.Flow.Sources
import PacScript.Proofs.Flow.Runs
import PacScript.Proofs.Flow.Ledger
import PacScript.Proofs.Flow.Neighbours
import PacScript.Proofs.Scan.Switches
import PacScript.Proofs.Flow.Conservation
import PacScript.Proofs.Flow.Tables
import PacScript.Proofs.Template.Naming
import PacScript.Proofs.Text.Trim
import PacScript.Proofs.Text.Hexadecimal
import PacScript.Proofs.Template.Written
import PacScript.Proofs.Scan.Belongings
import PacScript.Proofs.Flow.Order
import PacScript.Proofs.Flow.Stretches
import PacScript.Proofs.Flow.Blocks
import PacScript.Proofs.Flow.Routing
import PacScript.Proofs.Flow.Acceptance
import PacScript.Proofs.Script.Lookup
import PacScript.Proofs.Template.Spelling
import PacScript.Proofs.Template.Malformed
import PacScript.Proofs.Instruction.Targets
import PacScript.Proofs.Parameter.Index
import PacScript.Proofs.Text.Decoding
import PacScript.Proofs.Text.ShiftJis
import PacScript.Proofs.Bytes.Terminated
import PacScript.Proofs.Instruction.Steps
import PacScript.Proofs.Report.Lines
import PacScript.Proofs.Instruction.Access
import PacScript.Proofs.Instruction.Bounds
import PacScript.Proofs.Instruction.Capacity
import PacScript.Proofs.Scan.Capacity
