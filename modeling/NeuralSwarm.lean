import NeuralSwarm.Basic.Machine
import NeuralSwarm.Basic.Assoc
import NeuralSwarm.Basic.Blocks
import NeuralSwarm.Basic.Scalar
import NeuralSwarm.Basic.Rounding
import NeuralSwarm.Basic.Hysteresis
import NeuralSwarm.Basic.Float32
import NeuralSwarm.Basic.Permutation
import NeuralSwarm.Basic.Deduction
import NeuralSwarm.Basic.LittleEndian
import NeuralSwarm.Basic.Except
import NeuralSwarm.Basic.Cursor
import NeuralSwarm.Basic.Lease
import NeuralSwarm.Basic.Codec
import NeuralSwarm.Basic.Ranking
import NeuralSwarm.Compute
import NeuralSwarm.CapacityOrder
import NeuralSwarm.Node.State
import NeuralSwarm.Node.Registry
import NeuralSwarm.Protocol
import NeuralSwarm.Pipeline
import NeuralSwarm.Crypto
import NeuralSwarm.PeerIds
import NeuralSwarm.Platform
import NeuralSwarm.Orchestrator
import NeuralSwarm.Rebalance
import NeuralSwarm.Run
import NeuralSwarm.Coverage
import NeuralSwarm.Sequences
import NeuralSwarm.FirstStage
import NeuralSwarm.Stages
import NeuralSwarm.Duplicates
import NeuralSwarm.Refusals
import NeuralSwarm.Interleaving
import NeuralSwarm.Tickets
import NeuralSwarm.LayerReach
import NeuralSwarm.Drift
import NeuralSwarm.Entries
import NeuralSwarm.Degradation
import NeuralSwarm.Partition
import NeuralSwarm.Shares
import NeuralSwarm.Spared
import NeuralSwarm.Deviation
import NeuralSwarm.Joining
import NeuralSwarm.Traversal
import NeuralSwarm.LayerOrder
import NeuralSwarm.Forwarding
import NeuralSwarm.Backend
import NeuralSwarm.Executor
import NeuralSwarm.Composition
import NeuralSwarm.Worker
import NeuralSwarm.Sealing
import NeuralSwarm.Finish
import NeuralSwarm.Transport
import NeuralSwarm.Connecting
import NeuralSwarm.Connections
import NeuralSwarm.Ghosts
import NeuralSwarm.Assignments
import NeuralSwarm.ConnectionFrame
import NeuralSwarm.Agreement
import NeuralSwarm.Handshake
import NeuralSwarm.TaskBinding
import NeuralSwarm.Candle
import NeuralSwarm.QuantizedLlama.Layer
import NeuralSwarm.QuantizedLlama.Weights
import NeuralSwarm.KvCacheState
import NeuralSwarm.CandleBackend
import NeuralSwarm.StateFormats
import NeuralSwarm.Resident
import NeuralSwarm.SplitInference
import NeuralSwarm.Isolation
import NeuralSwarm.Decryption
import NeuralSwarm.SliceCoherence
import NeuralSwarm.FailedRuns
import NeuralSwarm.Leftovers
import NeuralSwarm.Remote
import NeuralSwarm.RangeReads
import NeuralSwarm.IgnoredRange
import NeuralSwarm.Mesh
import NeuralSwarm.Concurrency
import NeuralSwarm.Succession
import NeuralSwarm.Inference
import NeuralSwarm.Prefill
import NeuralSwarm.Membership
import NeuralSwarm.Ledger
import NeuralSwarm.Departures
import NeuralSwarm.Transfers
import NeuralSwarm.Monitor
import NeuralSwarm.WireFormat
import NeuralSwarm.FramedTransport
import NeuralSwarm.Authentication
import NeuralSwarm.QuantizedLlama.Routing
import NeuralSwarm.Stacking
import NeuralSwarm.StackedShapes
import NeuralSwarm.QuantizedLlama.Incremental
import NeuralSwarm.Generation
