import HackVM.Register
import HackVM.Name
import HackVM.Scope
import HackVM.Segment
import HackVM.Instruction
import HackVM.Instruction.Printer
import HackVM.Code
import HackVM.Command
import HackVM.Command.Reader
import HackVM.Text
import HackVM.Text.Bytes
import HackVM.Text.Quoted
import HackVM.Fault
import HackVM.Fault.Record
import HackVM.Statistics
import HackVM.Ledger
import HackVM.Routine
import HackVM.Lowering
import HackVM.Draft
import HackVM.Compile
import HackVM.Machine.Image
import HackVM.Machine.Computer
import HackVM.Machine.Console
import HackVM.CommandLine.Path
import HackVM.CommandLine.FileTree
import HackVM.CommandLine.Disk
import HackVM.CommandLine.Sources
import HackVM.CommandLine.Run
import HackVM.Main.Arguments
import HackVM.Main
import HackVM.Proofs.Outline
import HackVM.Proofs.Lowering
import HackVM.Proofs.Acceptance
import HackVM.Proofs.Labels
import HackVM.Proofs.Memory
import HackVM.Proofs.Loading
import HackVM.Proofs.Positions
import HackVM.Proofs.Execution
import HackVM.Proofs.Calls
import HackVM.Proofs.Stack
import HackVM.Proofs.Comparison
import HackVM.Proofs.StackMachine
import HackVM.Proofs.Simulation
import HackVM.Proofs.Closure
import HackVM.Proofs.Statics
import HackVM.Proofs.Reading
import HackVM.Proofs.RoundTrip
import HackVM.Proofs.Drafts
import HackVM.Proofs.Threshold
import HackVM.Proofs.Extension
import HackVM.Proofs.Renaming
import HackVM.Proofs.Sizes
import HackVM.Proofs.Counts
import HackVM.Proofs.UnitOrder
import HackVM.Proofs.Listing
import HackVM.Proofs.Paths
import HackVM.Proofs.Files
import HackVM.Proofs.Output
import HackVM.Proofs.Offences
import HackVM.Proofs.FirstFault
import HackVM.Proofs.Gathering
import HackVM.Proofs.Transfer
import HackVM.Proofs.Allocation
import HackVM.Proofs.Writing
