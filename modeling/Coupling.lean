import Coupling.Main
import Coupling.Proofs.ReaderCalls
import Coupling.Proofs.PoolReading
import Coupling.Proofs.PoolIndices
import Coupling.Proofs.CodeReading
import Coupling.Proofs.InstructionStreams
import Coupling.Proofs.ClassReading
import Coupling.Proofs.Description
import Coupling.Proofs.Decoding
import Coupling.Proofs.Recording
import Coupling.Proofs.Scanning
import Coupling.Proofs.Interleaving
import Coupling.Proofs.WorkerPool
import Coupling.Proofs.Contents
import Coupling.Proofs.Families
import Coupling.Proofs.Sharing
import Coupling.Proofs.Reaching
import Coupling.Proofs.Targets
import Coupling.Proofs.Encoding
import Coupling.Proofs.CodeUnits
import Coupling.Proofs.FirstFault
import Coupling.Proofs.DescriptorGrammar
import Coupling.Proofs.Mentions
import Coupling.Proofs.Segments
import Coupling.Proofs.ProjectFiles
import Coupling.Proofs.Validation
import Coupling.Proofs.Course
import Coupling.Proofs.CycleReports
import Coupling.Proofs.Balance
import Coupling.Proofs.Rounding
import Coupling.Proofs.MetricBounds
import Coupling.Proofs.Zones
import Coupling.Proofs.ReportedFailures
import Coupling.Proofs.ClassNames
import Coupling.Proofs.CodePrefixes
import Coupling.Proofs.ScannedOnce
import Coupling.Proofs.Subpackages
import Coupling.Proofs.BuildSettings
import Coupling.Proofs.JsonGrammar
import Coupling.Proofs.JsonReading
import Coupling.Proofs.Numerals
import Coupling.Proofs.Guarding
import Coupling.Proofs.JsonWriting
import Coupling.Proofs.Templates
import Coupling.Proofs.PageData
