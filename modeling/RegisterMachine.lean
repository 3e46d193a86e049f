import RegisterMachine.CommandLine.Transcript
import RegisterMachine.LittleEndian.Lemmas
import RegisterMachine.Main
import RegisterMachine.Proofs.CodecLaws
import RegisterMachine.Syscall.Inspection
import RegisterMachine.Proofs.ValueCodecLaws
import RegisterMachine.Proofs.InstructionDecoder
import RegisterMachine.Proofs.CodeAhead
import RegisterMachine.Proofs.SuppliedScript
import RegisterMachine.Proofs.DecodedStep
import RegisterMachine.Proofs.StepFrame
import RegisterMachine.Proofs.StepControl
import RegisterMachine.Proofs.DataFaults
import RegisterMachine.Proofs.StepFaults
import RegisterMachine.Proofs.StandardStep
import RegisterMachine.Proofs.ControlFlow
import RegisterMachine.Proofs.NamedInstruction
import RegisterMachine.Proofs.SourceProgram
import RegisterMachine.Proofs.AssembledRun
import RegisterMachine.Proofs.BackwardJumps
import RegisterMachine.Proofs.HandlerFaults
import RegisterMachine.Proofs.Synchronization
import RegisterMachine.Proofs.SourceInterpreter
import RegisterMachine.Proofs.SourceSimulation
import RegisterMachine.Proofs.CompilerCorrectness
import RegisterMachine.Proofs.CompositeCodecs
import RegisterMachine.Proofs.ValueFormat
import RegisterMachine.Proofs.ActionContracts
import RegisterMachine.Proofs.MachineInvariant
import RegisterMachine.Proofs.ReachableStates
import RegisterMachine.Proofs.SourceLines
import RegisterMachine.Proofs.OperandWords
import RegisterMachine.Proofs.AssemblySpecification
import RegisterMachine.Proofs.ProgramFile
import RegisterMachine.Proofs.CompiledPrograms
import RegisterMachine.Proofs.InstructionEffects
import RegisterMachine.Proofs.ValueMisreads
import RegisterMachine.Proofs.FaultReports
import RegisterMachine.Proofs.MemoryHistory
import RegisterMachine.Proofs.PairedActions
import RegisterMachine.Proofs.SizeIndependence
import RegisterMachine.Proofs.Lifecycle
import RegisterMachine.Proofs.WorkerObservation
import RegisterMachine.Proofs.IntegerArithmetic
import RegisterMachine.Proofs.MemoryReads
import RegisterMachine.Proofs.ReaderOperations
import RegisterMachine.Proofs.StringReaders
import RegisterMachine.Proofs.ArithmeticFaults
import RegisterMachine.Proofs.Progress
import RegisterMachine.Proofs.SourceContents
import RegisterMachine.Proofs.SourceLayout
import RegisterMachine.Proofs.TrimmedLines
import RegisterMachine.Proofs.GregorianCalendar
import RegisterMachine.Proofs.NumeralGrammar
import RegisterMachine.Proofs.OperandGrammar
import RegisterMachine.Proofs.CheckedOffsets
import RegisterMachine.Proofs.CheckedAssembly
import RegisterMachine.Proofs.ErrorPlaces
import RegisterMachine.Proofs.StoredStrings
import RegisterMachine.Proofs.DiagnosticCaret
import RegisterMachine.Proofs.OutputPaths
