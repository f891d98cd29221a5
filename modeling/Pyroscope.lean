import Pyroscope.Lib.Outcome
import Pyroscope.Lib.Transition
import Pyroscope.Lib.Cyclic
import Pyroscope.Lib.Lock
import Pyroscope.Lib.Linearize
import Pyroscope.Lib.WaitFree
import Pyroscope.Lib.Memory
import Pyroscope.Lib.Balance
import Pyroscope.Lib.Channel
import Pyroscope.Lib.Call
import Pyroscope.Lib.HashMap
import Pyroscope.Lib.Interner
import Pyroscope.Lib.BTreeSet
import Pyroscope.Machine
import Pyroscope.Backend.Types
import Pyroscope.Backend.Ruleset
import Pyroscope.Encode.StringTable
import Pyroscope.Encode.Profile
import Pyroscope.Encode.Pprof
import Pyroscope.Encode.Tables
import Pyroscope.Encode.Builder
import Pyroscope.Encode.Encode
import Pyroscope.Encode.RoundTrip
import Pyroscope.Encode.Windows
import Pyroscope.Ring.RingBuffer
import Pyroscope.Ring.Invariant
import Pyroscope.Ring.Fifo
import Pyroscope.Ring.Ownership
import Pyroscope.Ring.Sequential
import Pyroscope.Ring.Linearizable
import Pyroscope.Ring.WaitFree
import Pyroscope.Signal.Metrics
import Pyroscope.Signal.Session
import Pyroscope.Signal.Accounting
import Pyroscope.Signal.Ordered
import Pyroscope.Signal.WaitFree
import Pyroscope.Signal.Timers
import Pyroscope.Signal.Armed
import Pyroscope.Signal.Calls
import Pyroscope.Signal.Registry
import Pyroscope.Signal.Unwind
import Pyroscope.Signal.FrameChain
import Pyroscope.Agent.Profilers
import Pyroscope.Agent.Interning
import Pyroscope.Agent.Lifecycle
import Pyroscope.Agent.Process
import Pyroscope.Agent.Configure
import Pyroscope.Agent.Fork
import Pyroscope.Upload.Config
import Pyroscope.Upload.Push
import Pyroscope.Upload.Manager
import Pyroscope.Upload.Shutdown
import Pyroscope.Upload.Flush
import Pyroscope.Backend.Pyspy
import Pyroscope.Signal.Backlog
import Pyroscope.Upload.LastSnapshot
import Pyroscope.Upload.Conservation
import Pyroscope.Upload.Delivery
import Pyroscope.Upload.Laps
import Pyroscope.Upload.Refines
import Pyroscope.Signal.Pipeline
import Pyroscope.Signal.Hooks
import Pyroscope.Signal.ThreadHooks
import Pyroscope.Lib.Locking
import Pyroscope.Agent.Locks
import Pyroscope.Lib.TwoRuns
import Pyroscope.Encode.Reuse
import Pyroscope.Signal.Leftovers
import Pyroscope.Agent.Alike
import Pyroscope.Agent.Isolation
import Pyroscope.Signal.HostileMemory
import Pyroscope.Lib.Utf8
import Pyroscope.Agent.StringDoors
import Pyroscope.Python.TagWrapper
import Pyroscope.Python.Entering
import Pyroscope.Lib.Narrow
import Pyroscope.Signal.Resolve
import Pyroscope.Lib.Keyed
import Pyroscope.Upload.Labels
import Pyroscope.Encode.Representation
import Pyroscope.Lib.Heap
import Pyroscope.Agent.LeakableMutex
import Pyroscope.Agent.Windows
import Pyroscope.Upload.Samples
import Pyroscope.Upload.Tagged
