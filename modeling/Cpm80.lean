import Cpm80.Main
import Cpm80.Scripted
import Cpm80.Station
import Cpm80.Proofs.BinaryLoop
import Cpm80.Proofs.Blocks
import Cpm80.Proofs.Correspondence
import Cpm80.Proofs.DecimalLoop
import Cpm80.Proofs.Dependence
import Cpm80.Proofs.Footprint
import Cpm80.Proofs.Lifecycle
import Cpm80.Proofs.Observation
import Cpm80.Proofs.Placement
import Cpm80.Proofs.PrintProgram
import Cpm80.Proofs.Refinement
import Cpm80.Proofs.Surfacing
import Cpm80.Proofs.Undocumented
import Cpm80.Proofs.Accesses
import Cpm80.Proofs.ConsoleText
import Cpm80.Proofs.Recurrence
import Cpm80.Proofs.ControlFlow
import Cpm80.Proofs.Deposits
import Cpm80.Proofs.RegisterFrame
import Cpm80.Proofs.Accumulator
import Cpm80.Proofs.ArithmeticPaths
import Cpm80.Proofs.Resumption
import Cpm80.Proofs.StackDiscipline
import Cpm80.Proofs.Exchanges
import Cpm80.Proofs.Refusal
import Cpm80.Proofs.Warnings
import Cpm80.Proofs.BitFields
import Cpm80.Proofs.StoreHistory
import Cpm80.Proofs.Decoding
import Cpm80.Proofs.FileName
