import CppRaft.Common.Int32
import CppRaft.Common.LockQueue
import CppRaft.Common.QueueOrder
import CppRaft.Common.QueueRest
import CppRaft.Consensus.History
import CppRaft.Consensus.Prefix
import CppRaft.Consensus.Preservation
import CppRaft.Consensus.Reachable
import CppRaft.Consensus.Soundness
import CppRaft.Consensus.Steps
import CppRaft.Container.OrderedSet
import CppRaft.Container.Total
import CppRaft.Fiber.Accounting
import CppRaft.Fiber.Armed
import CppRaft.Fiber.Custody
import CppRaft.Fiber.Expiry
import CppRaft.Fiber.Firing
import CppRaft.Fiber.Handover
import CppRaft.Fiber.IOManager
import CppRaft.Fiber.IdleWait
import CppRaft.Fiber.Ledger
import CppRaft.Fiber.Registration
import CppRaft.Fiber.Reports
import CppRaft.Fiber.Scheduler
import CppRaft.Fiber.Timer
import CppRaft.Fiber.WakeUps
import CppRaft.Kv.Acknowledged
import CppRaft.Kv.Agreement
import CppRaft.Kv.ApplyOrder
import CppRaft.Kv.AtMostOnce
import CppRaft.Kv.Consistent
import CppRaft.Kv.Core
import CppRaft.Kv.Critical
import CppRaft.Kv.Effect
import CppRaft.Kv.Embedding
import CppRaft.Kv.FreshReads
import CppRaft.Kv.HandlerSteps
import CppRaft.Kv.Host
import CppRaft.Kv.HostEffect
import CppRaft.Kv.InLine
import CppRaft.Kv.Linearizable
import CppRaft.Kv.Ownership
import CppRaft.Kv.Pipeline
import CppRaft.Kv.Replica
import CppRaft.Kv.Replication
import CppRaft.Kv.Seat
import CppRaft.Kv.Sections
import CppRaft.Kv.Service
import CppRaft.Kv.System
import CppRaft.Kv.SystemRuns
import CppRaft.Kv.Tracked
import CppRaft.Kv.WaitChannels
import CppRaft.Protocol.Assertions
import CppRaft.Protocol.Available
import CppRaft.Protocol.Bookkeeping
import CppRaft.Protocol.Bounds
import CppRaft.Protocol.Core
import CppRaft.Protocol.Delivery
import CppRaft.Protocol.Effect
import CppRaft.Protocol.Electable
import CppRaft.Protocol.Election
import CppRaft.Protocol.ElectionSafety
import CppRaft.Protocol.Identity
import CppRaft.Protocol.LeaderLog
import CppRaft.Protocol.NodeLog
import CppRaft.Protocol.NodeRel
import CppRaft.Protocol.Quorum
import CppRaft.Protocol.Recount
import CppRaft.Protocol.Refinement
import CppRaft.Protocol.Reign
import CppRaft.Protocol.Safety
import CppRaft.Protocol.Simulation
import CppRaft.Protocol.Speaker
import CppRaft.Protocol.Tally
import CppRaft.RaftCore.Advance
import CppRaft.RaftCore.Applied
import CppRaft.RaftCore.Backtrack
import CppRaft.RaftCore.CatchUp
import CppRaft.RaftCore.Compaction
import CppRaft.RaftCore.Exchange
import CppRaft.RaftCore.LogView
import CppRaft.RaftCore.Node
import CppRaft.RaftCore.Outcome
import CppRaft.RaftCore.Overflow
import CppRaft.RaftCore.Overlay
import CppRaft.RaftCore.Persistence
import CppRaft.RaftCore.Placed
import CppRaft.RaftCore.Progress
import CppRaft.RaftCore.Receiver
import CppRaft.RaftCore.ReceiverRule
import CppRaft.RaftCore.Recount
import CppRaft.RaftCore.Sender
import CppRaft.RaftCore.Stale
import CppRaft.RaftCore.Storing
import CppRaft.RaftCore.Terms
import CppRaft.RaftCore.Total
import CppRaft.RaftCore.Transparency
import CppRaft.RaftCore.Types
import CppRaft.RaftCore.Wrapping
import CppRaft.Rpc.Channel
import CppRaft.Rpc.Config
import CppRaft.Rpc.Discovery
import CppRaft.Rpc.Header
import CppRaft.Rpc.Replies
import CppRaft.Rpc.Request
import CppRaft.Rpc.Services
import CppRaft.Rpc.Shared
import CppRaft.Session.Atomic
import CppRaft.Session.Linearizable
import CppRaft.Session.Marks
import CppRaft.Store.Persister
import CppRaft.Store.Stream
import CppRaft.Transition.Descent
import CppRaft.Transition.Growing
import CppRaft.Transition.Lockstep
import CppRaft.Transition.Possible
import CppRaft.Transition.Run
import CppRaft.Transition.Trace
import CppRaft.Wire.Decimal
import CppRaft.Wire.Framing
import CppRaft.Wire.Message
import CppRaft.Wire.Varint
