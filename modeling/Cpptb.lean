import Cpptb.Lib.Rounding
import Cpptb.Lib.Runs
import Cpptb.Lib.Tally
import Cpptb.Lib.Ranges
import Cpptb.Lib.MixedRadix
import Cpptb.Lib.Segments
import Cpptb.Lib.Ensures
import Cpptb.Lib.Smt
import Cpptb.Lib.Counters
import Cpptb.Lib.Tables
import Cpptb.Lib.Draws
import Cpptb.Coro.State
import Cpptb.Coro.Waits
import Cpptb.Coro.Processes
import Cpptb.Coro.Machine
import Cpptb.Coro.Lifecycle
import Cpptb.Coro.Invariant
import Cpptb.Coro.Preservation
import Cpptb.Coro.Activation
import Cpptb.Coro.Turnover
import Cpptb.Coro.Moves
import Cpptb.Coro.Paths
import Cpptb.Coro.Endings
import Cpptb.Coro.Cancelling
import Cpptb.Coro.Suspending
import Cpptb.Coro.Children
import Cpptb.Coro.Draining
import Cpptb.Coro.Steps
import Cpptb.Coro.Registrations
import Cpptb.Coro.Interest
import Cpptb.Coro.Bookkeeping
import Cpptb.Coro.Host
import Cpptb.Coro.Timers
import Cpptb.Memory.SparseMemory
import Cpptb.Memory.FlatMemory
import Cpptb.Memory.Refinement
import Cpptb.Memory.Words
import Cpptb.Memory.Callbacks
import Cpptb.Randomize.Scalars
import Cpptb.Randomize.Expressions
import Cpptb.Randomize.Domains
import Cpptb.Randomize.Sampling
import Cpptb.Randomize.Search
import Cpptb.Randomize.Soundness
import Cpptb.Randomize.Z3Backend
import Cpptb.Randomize.Randomized
import Cpptb.Randomize.Cycles
import Cpptb.Randomize.Integers
import Cpptb.Randomize.Choices
import Cpptb.Randomize.Uniformity
import Cpptb.Randomize.Backends
import Cpptb.Randomize.Caching
import Cpptb.Randomize.Exhaustion
import Cpptb.Testing.Seeds
import Cpptb.Testing.RunState
import Cpptb.Testing.Verdict
import Cpptb.Testing.SimLogging
import Cpptb.Testing.Streams
import Cpptb.Vc.AnalysisPort
import Cpptb.Vc.BufferAccounting
import Cpptb.Vc.Scoreboards
import Cpptb.Vc.RegisterCoverage
import Cpptb.Vc.RegisterEntries
import Cpptb.Vc.ActionTable
import Cpptb.Vc.CoverageLookup
import Cpptb.Coverage.Covergroup
import Cpptb.Coverage.Merging
import Cpptb.Coverage.CrossCounting
import Cpptb.Coverage.Declaring
import Cpptb.Lib.Clocked
import Cpptb.Vc.Stream
import Cpptb.Vc.StreamTransfers
import Cpptb.Vc.Apb
import Cpptb.Vc.ApbCycles
import Cpptb.Vc.ApbTransfers
import Cpptb.FixedPoint.PackedBits
import Cpptb.FixedPoint.Quantize
import Cpptb.FixedPoint.Magnitudes
import Cpptb.FixedPoint.Quantized
import Cpptb.FixedPoint.ExactValues
import Cpptb.FixedPoint.Slices
import Cpptb.FixedPoint.Hex
import Cpptb.Lib.Regions
import Cpptb.RegisterModel.Effects
import Cpptb.RegisterModel.Handle
import Cpptb.RegisterModel.Fields
import Cpptb.RegisterModel.Shortcut
import Cpptb.RegisterModel.StagedWrites
import Cpptb.Lib.Bursts
import Cpptb.RegisterModel.MemoryHandles
import Cpptb.RegisterModel.MemoryRanges
import Cpptb.RegisterModel.WideHandle
import Cpptb.RegisterModel.Addresses
import Cpptb.RegisterModel.WideMemory
import Cpptb.RegisterModel.Predictor
import Cpptb.Vc.CoverageCounters
import Cpptb.Vc.CoverageDecoding
import Cpptb.Lib.Json
import Cpptb.Testing.Reporting
import Cpptb.Vc.TransactionTrace
import Cpptb.Dpi.StaticBinding
import Cpptb.Dpi.AccessAgreement
import Cpptb.RegisterModel.Hardware
import Cpptb.RegisterModel.Sequences
import Cpptb.RegisterModel.SequenceVerdicts
import Cpptb.Hierarchy.Transport
import Cpptb.Hierarchy.ForceCache
import Cpptb.Hierarchy.BlockMemory
import Cpptb.RegisterModel.HdlBackdoor
import Cpptb.RegisterModel.RgGen
import Cpptb.RegisterModel.RgGenMap
import Cpptb.RegisterModel.Exports
import Cpptb.Lib.Utf8
import Cpptb.Lib.Scanning
import Cpptb.Dpi.CppText
import Cpptb.Lib.BinarySearch
import Cpptb.Dpi.HierarchyLookup
import Cpptb.Hierarchy.Indexing
import Cpptb.Lib.Stacking
import Cpptb.Dpi.PackedTypes
import Cpptb.Dpi.PackedElaboration
import Cpptb.Dpi.PackedClasses
import Cpptb.Dpi.PackedLayout
