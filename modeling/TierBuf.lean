import TierBuf.Ledger
import TierBuf.Transition
import TierBuf.OrderedMap
import TierBuf.Core.Swip
import TierBuf.Core.Frame
import TierBuf.Fault.Coordinator
import TierBuf.Fault.Coalescing
import TierBuf.Pool.Shared
import TierBuf.Pool.Pc
import TierBuf.Pool.Step
import TierBuf.Pool.Role
import TierBuf.Pool.Invariant
import TierBuf.Pool.Ledgers
import TierBuf.Pool.Interference
import TierBuf.Pool.Moves
import TierBuf.Pool.PageMoves
import TierBuf.Pool.Operations
import TierBuf.Pool.Faulting
import TierBuf.Pool.Evicting
import TierBuf.Pool.Filling
import TierBuf.Pool.Background
import TierBuf.Pool.Safety
import TierBuf.Pool.Footprint
import TierBuf.Pool.Flow
import TierBuf.Pool.Residency
import TierBuf.Tier.Budget
import TierBuf.Policy.Heat
import TierBuf.Uring.Custody
import TierBuf.Uring.Completion
import TierBuf.Uring.Capacity
import TierBuf.Uring.Engine
import TierBuf.Pool.Accounting
import TierBuf.Pool.Occupants
import TierBuf.Pool.Markers
import TierBuf.Pool.PrefetchHits
import TierBuf.Pool.SecondChance
import TierBuf.Pool.Admission
import TierBuf.Pool.PrefetchCalls
import TierBuf.Pool.Optimistic
import TierBuf.Pool.Handles
import TierBuf.Core.Word
import TierBuf.Policy.Economic
import TierBuf.Tier.Transfer
import TierBuf.Tier.File
import TierBuf.Tier.Mock
import TierBuf.Core.Latch
import TierBuf.Pool.Contents
import TierBuf.Pool.Authority
import TierBuf.Pool.Ticket
import TierBuf.Pool.Fallback
import TierBuf.Pool.Cooler
import TierBuf.Pool.Reclaim
import TierBuf.Pool.Acquire
import TierBuf.Pool.Waiters
import TierBuf.Pool.Progress
import TierBuf.Metrics.Recorder
import TierBuf.Metrics.Cost
import TierBuf.Pool.Atomicity
import TierBuf.Pool.Process
import TierBuf.Pool.Canonical
import TierBuf.Pool.Alone
import TierBuf.Pool.Signal
import TierBuf.Pool.Teardown
import TierBuf.Core.Mapping
import TierBuf.Pool.Bytes
