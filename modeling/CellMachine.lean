import CellMachine.Abort
import CellMachine.Cell
import CellMachine.Fault
import CellMachine.Main
import CellMachine.Opcode
import CellMachine.Program
import CellMachine.Record
import CellMachine.Session
import CellMachine.Store
import CellMachine.Word
import CellMachine.Computer.Basic
import CellMachine.Computer.Run
import CellMachine.Script.Action
import CellMachine.Script.Line
import CellMachine.Script.Operand
import CellMachine.Script.Replay
import CellMachine.Script.Routine
import CellMachine.Shell.Command
import CellMachine.Shell.Dialogue
import CellMachine.Shell.Invocation
import CellMachine.Shell.Report
import CellMachine.Text.Basic
import CellMachine.Text.Bytes
import CellMachine.Text.Decimal
import CellMachine.Text.Name
import CellMachine.Proofs.Reply
import CellMachine.Proofs.Computer.Edit
import CellMachine.Proofs.Computer.Ending
import CellMachine.Proofs.Computer.Frame
import CellMachine.Proofs.Computer.Growth
import CellMachine.Proofs.Computer.Loading
import CellMachine.Proofs.Computer.Operations
import CellMachine.Proofs.Computer.Preservation
import CellMachine.Proofs.Computer.Reachable
import CellMachine.Proofs.Computer.Refinement
import CellMachine.Proofs.Computer.Sound
import CellMachine.Proofs.Computer.StackMachine
import CellMachine.Proofs.Computer.Termination
import CellMachine.Proofs.Computer.Trace
import CellMachine.Proofs.Computer.Variant
import CellMachine.Proofs.Fault.Message
import CellMachine.Proofs.Program.Postfix
import CellMachine.Proofs.Program.StraightLine
import CellMachine.Proofs.Program.Subroutine
import CellMachine.Proofs.Script.Category
import CellMachine.Proofs.Script.Chain
import CellMachine.Proofs.Script.Grammar
import CellMachine.Proofs.Script.Limit
import CellMachine.Proofs.Script.Line
import CellMachine.Proofs.Script.Meaning
import CellMachine.Proofs.Script.Replay
import CellMachine.Proofs.Script.Report
import CellMachine.Proofs.Script.Spelling
import CellMachine.Proofs.Script.Wording
import CellMachine.Proofs.Session.Attribution
import CellMachine.Proofs.Session.Capture
import CellMachine.Proofs.Session.Chain
import CellMachine.Proofs.Session.Failures
import CellMachine.Proofs.Session.Forgetting
import CellMachine.Proofs.Session.Front
import CellMachine.Proofs.Session.Growth
import CellMachine.Proofs.Session.Outline
import CellMachine.Proofs.Session.Overload
import CellMachine.Proofs.Session.Records
import CellMachine.Proofs.Session.Requests
import CellMachine.Proofs.Session.Sound
import CellMachine.Proofs.Session.Source
import CellMachine.Proofs.Shell.Agreement
import CellMachine.Proofs.Shell.Arguments
import CellMachine.Proofs.Shell.Dialogue
import CellMachine.Proofs.Shell.Transcript
import CellMachine.Proofs.Store.Layout
import CellMachine.Proofs.Store.Split
import CellMachine.Proofs.Text.Identifier
import CellMachine.Proofs.Text.Lines
import CellMachine.Proofs.Text.Trim
