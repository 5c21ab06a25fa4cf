import SyncCore.Mutex.State

/-!
# Threads that share one mutex

Each thread raises a counter by one a number of times, each time while it
holds the mutex. The counter is read and written by separate steps, so only
the mutex keeps an increment from being lost. The threads here run one after
the other.
-/

set_option autoImplicit false

namespace SyncCore.Mutex.Workload

structure State where
  mutex : Mutex.State RawLock
  counter : Nat
  deriving DecidableEq, Repr

def increment (me : Nat) (s : State) : Option State := do
  match ← Mutex.run me .lock s.mutex with
  | (.outcome (.ok _), held) =>
    let (_, mutex) ← Mutex.run me .release held
    return ⟨mutex, s.counter + 1⟩
  | (_, mutex) => return { s with mutex := mutex }

def runAlone (me : Nat) : Nat → State → Option State
  | 0, s => some s
  | n + 1, s => (increment me s).bind (runAlone me n)

def runInTurn (threads increments : Nat) (mutex : Mutex.State RawLock) : Option State :=
  (List.range threads).foldlM (fun s me => runAlone me increments s) ⟨mutex, 0⟩

end SyncCore.Mutex.Workload
