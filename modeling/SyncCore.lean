import SyncCore.Atomic.Workload
import SyncCore.Mutex.Workload
import SyncCore.Proofs.Atomic.Updates
import SyncCore.Proofs.Backend.Injection
import SyncCore.Proofs.Backend.Journal
import SyncCore.Proofs.Backend.Parking
import SyncCore.Proofs.Backend.Solo
import SyncCore.Proofs.Identity.Coherence
import SyncCore.Proofs.Identity.MistakenIdentity
import SyncCore.Proofs.Identity.Numberings
import SyncCore.Proofs.Identity.SelfLookup
import SyncCore.Proofs.Identity.Site
import SyncCore.Proofs.Lock.Exclusive
import SyncCore.Proofs.Lock.Instants
import SyncCore.Proofs.Lock.Waking
import SyncCore.Proofs.Manager.Accounting
import SyncCore.Proofs.Manager.Actions
import SyncCore.Proofs.Manager.Chronicle
import SyncCore.Proofs.Manager.Creation
import SyncCore.Proofs.Manager.Dealings
import SyncCore.Proofs.Manager.Description
import SyncCore.Proofs.Manager.Disposal
import SyncCore.Proofs.Manager.Failures
import SyncCore.Proofs.Manager.Faults
import SyncCore.Proofs.Manager.Gate
import SyncCore.Proofs.Manager.History
import SyncCore.Proofs.Manager.Joining
import SyncCore.Proofs.Manager.LifeCycle
import SyncCore.Proofs.Manager.Losses
import SyncCore.Proofs.Manager.Occupancy
import SyncCore.Proofs.Manager.Polling
import SyncCore.Proofs.Manager.Priorities
import SyncCore.Proofs.Manager.Publication
import SyncCore.Proofs.Manager.Refusal
import SyncCore.Proofs.Manager.Release
import SyncCore.Proofs.Manager.Spawning
import SyncCore.Proofs.Manager.Suspension
import SyncCore.Proofs.Manager.Tasks
import SyncCore.Proofs.Manager.Validation
import SyncCore.Proofs.Manager.Waiting
import SyncCore.Proofs.Manager.Without
import SyncCore.Proofs.Manager.World
import SyncCore.Proofs.Mutex.Afterlife
import SyncCore.Proofs.Mutex.Backing
import SyncCore.Proofs.Mutex.Clients
import SyncCore.Proofs.Mutex.Custody
import SyncCore.Proofs.Mutex.Draining
import SyncCore.Proofs.Mutex.Exclusion
import SyncCore.Proofs.Mutex.Racing
import SyncCore.Proofs.Mutex.Teardown
import SyncCore.Proofs.Mutex.Undoing
import SyncCore.Proofs.Registry.Bounded
import SyncCore.Proofs.Registry.Calls
import SyncCore.Proofs.Registry.Search
import SyncCore.Proofs.Registry.Serial
import SyncCore.Proofs.Registry.Slots
import SyncCore.Proofs.Registry.Tenure
import SyncCore.Proofs.Registry.Walk
import SyncCore.Proofs.Run
import SyncCore.Proofs.Script.ReadOnce
import SyncCore.Proofs.Thread.NativeRange
import SyncCore.Schema
import SyncCore.Script.OneMutex
import SyncCore.Script.Threads.Pool
