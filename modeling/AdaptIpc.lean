import AdaptIpc.Library.Transition
import AdaptIpc.Library.Progress
import AdaptIpc.Library.Fifo
import AdaptIpc.Library.Bytes
import AdaptIpc.Library.Cursor
import AdaptIpc.Library.Streak
import AdaptIpc.Library.Stream
import AdaptIpc.Library.Fairness
import AdaptIpc.Library.Smoothing
import AdaptIpc.Library.Ledger
import AdaptIpc.Library.Custody
import AdaptIpc.Errno
import AdaptIpc.Ring.Buffer
import AdaptIpc.Ring.Layout
import AdaptIpc.Ring.Placement
import AdaptIpc.Ring.Machine
import AdaptIpc.Ring.Step
import AdaptIpc.Ring.Invariant
import AdaptIpc.Ring.Call
import AdaptIpc.Ring.Refinement
import AdaptIpc.Ring.Wedge
import AdaptIpc.Ring.Pop
import AdaptIpc.Ring.Wakeup
import AdaptIpc.Ring.Map
import AdaptIpc.Ring.Attach
import AdaptIpc.Ring.Scatter
import AdaptIpc.Ring.Region
import AdaptIpc.Ring.SizeCheck
import AdaptIpc.Ring.PopBound
import AdaptIpc.Ring.Throttle
import AdaptIpc.Ring.Occupancy
import AdaptIpc.Ring.EmulatedFutex
import AdaptIpc.Ring.EmulatedRing
import AdaptIpc.Ring.WaitFree
import AdaptIpc.Ring.FairPush
import AdaptIpc.Policy.RuntimeContext
import AdaptIpc.Policy.CostModel
import AdaptIpc.Policy.Debounce
import AdaptIpc.Policy.Recovery
import AdaptIpc.Policy.Noise
import AdaptIpc.Library.Recent
import AdaptIpc.Policy.DecisionLog
import AdaptIpc.Policy.Learning
import AdaptIpc.Policy.Crossover
import AdaptIpc.Policy.Calibration
import AdaptIpc.Policy.Pressure
import AdaptIpc.Policy.Stationary
import AdaptIpc.Policy.WellFormed
import AdaptIpc.Endpoint.Context
import AdaptIpc.Endpoint.Control
import AdaptIpc.Endpoint.SetupFrame
import AdaptIpc.Endpoint.Send
import AdaptIpc.Endpoint.SendMove
import AdaptIpc.Endpoint.SendFrame
import AdaptIpc.Endpoint.Retry
import AdaptIpc.Endpoint.SendRing
import AdaptIpc.Endpoint.Drain
import AdaptIpc.Endpoint.Routing
import AdaptIpc.Endpoint.Stability
import AdaptIpc.Endpoint.QueueAware
import AdaptIpc.Endpoint.Dwell
import AdaptIpc.Endpoint.FlipTime
import AdaptIpc.Endpoint.Backpressure
import AdaptIpc.Endpoint.Backlog
import AdaptIpc.Endpoint.Refusal
import AdaptIpc.Endpoint.Recv
import AdaptIpc.Endpoint.RecvMove
import AdaptIpc.Endpoint.Truncation
import AdaptIpc.Endpoint.RecvRing
import AdaptIpc.Endpoint.Redelivery
import AdaptIpc.Endpoint.ShortBuffer
import AdaptIpc.Endpoint.Link
import AdaptIpc.Endpoint.Handshake
import AdaptIpc.Endpoint.Placing
import AdaptIpc.Endpoint.Handing
import AdaptIpc.Endpoint.Delivery
import AdaptIpc.Endpoint.Staging
import AdaptIpc.Endpoint.HandshakeWait
import AdaptIpc.Endpoint.Snapshot
import AdaptIpc.Endpoint.SendLedger
import AdaptIpc.Endpoint.DecisionHistory
import AdaptIpc.Endpoint.RecvLedger
import AdaptIpc.Endpoint.Holdings
import AdaptIpc.Endpoint.Lifetime
import AdaptIpc.Endpoint.Socket
