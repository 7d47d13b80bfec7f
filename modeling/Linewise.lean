import Linewise.Forwarding
import Linewise.Main
import Linewise.Proofs.StraightLine
import Linewise.Proofs.JumpQueue
import Linewise.Proofs.Landing
import Linewise.Proofs.Delivery
import Linewise.Proofs.Loading
import Linewise.Proofs.Memory
import Linewise.Proofs.Flushing
import Linewise.Proofs.Tracing
import Linewise.Proofs.LineReader
import Linewise.Proofs.Confinement
import Linewise.Proofs.Mention
import Linewise.Proofs.PartialApplication
import Linewise.Proofs.FaultLine
import Linewise.Proofs.Halting
import Linewise.Proofs.Release
import Linewise.Proofs.Registering
import Linewise.Proofs.Listening
import Linewise.Proofs.Ledger
import Linewise.Proofs.Succession
import Linewise.Proofs.Labelling
import Linewise.Proofs.Nesting
import Linewise.Proofs.TapeReading
import Linewise.Proofs.TapeLimit
import Linewise.Proofs.BulkLoading
import Linewise.Proofs.Occupancy
import Linewise.Proofs.ExactArithmetic
import Linewise.Proofs.Wrapping
import Linewise.Proofs.Bounding
import Linewise.Proofs.Bottomless
import Linewise.Proofs.Convention
import Linewise.Proofs.SevenBit
import Linewise.Proofs.Commenting
import Linewise.Proofs.ParameterList
import Linewise.Proofs.Comparing
import Linewise.Proofs.Nearest
import Linewise.Proofs.DecimalValue
import Linewise.Proofs.NumeralGrammar
import Linewise.Proofs.NumeralValue
import Linewise.Proofs.NumberText
import Linewise.Proofs.Slicing
import Linewise.Proofs.Chunking
import Linewise.Proofs.Logging
import Linewise.Proofs.Combining
