import SyncCore.Atomic.Workload
import SyncCore.Script.Threads.Exec

/-!
# A pool of threads

A manager with room for the usual number of threads starts some of them. Each
thread adds to a cell that all of them share and returns its index and the
name it is known by. The threads are then joined and destroyed in order. A
thread that finds no room in the manager's table is reported by its error.
-/

set_option autoImplicit false

namespace SyncCore.Script.Threads.Pool

structure Member where
  index : Nat
  name : Option String
  deriving DecidableEq, Repr

structure Farewell where
  joined : Outcome Member
  state : ThreadState
  destroyed : Outcome Unit

structure Report where
  farewells : List (Outcome Farewell)
  total : Int32
  size : Nat

def platform : String := "platform"

def manager : String := "manager"

def memberName (i : Nat) : String := "w" ++ toString i

def ask (s : Step Member) : Run Member (Reply Member) := exec 1 s

/-- Creates a thread. If there is no room for it, it still runs, but nobody owns it. -/
def create (i : Nat) : Run Member (Outcome Unit) := do
  let name := memberName i
  match ← ask (.create manager name ⟨none, none, some name, false, false⟩) with
  | .created _ => return .ok ()
  | .outcome (.error e) => return .error e
  | _ => failure

def ownName (i : Nat) : Run Member (Option String) := do
  match ← ask (.inside (memberName i) (.current manager)) with
  | .myself v => return v.map (·.name)
  | _ => failure

def finish (i : Nat) : Run Member Unit := do
  let name ← ownName i
  let _ ← ask (.finish (memberName i) (.value ⟨i, name⟩))

def farewell (i : Nat) : Run Member Farewell := do
  let joined ← ask (.join manager (memberName i) 1 .panic)
  let state ← ask (.getState manager (memberName i))
  let destroyed ← ask (.destroy manager (memberName i) false)
  match joined, state, destroyed with
  | .returned j, .state s, .outcome d => return ⟨j, s, d⟩
  | .returned j, .state s, .destroyRefused e _ => return ⟨j, s, .error e⟩
  | _, _, _ => failure

def size : Run Member Nat := do
  match ← ask (.tableState (.manager manager)) with
  | .tableState n _ _ => return n
  | _ => failure

def opening (setup : Setup) : Run Member (Outcome Unit) := do
  let _ ← ask (.platform platform setup)
  match ← ask (.manager manager platform) with
  | .outcome r => return r
  | _ => failure

def forOwned {α : Type} (created : List (Nat × Outcome Unit)) (run : Nat → Run Member α) :
    Run Member (List (Outcome α)) :=
  created.mapM fun m => do
    match m.2 with
    | .ok _ => return .ok (← run m.1)
    | .error e => return .error e

def life (setup : Setup) (members : List Nat) :
    Run Member (Outcome (List (Outcome Farewell) × Nat)) := do
  match ← opening setup with
  | .error e => return .error e
  | .ok _ =>
    let created ← members.mapM fun i => do return (i, ← create i)
    let _ ← forOwned created finish
    let farewells ← forOwned created farewell
    return .ok (farewells, ← size)

def run (backend : Backend) (capabilities : Option Capabilities) (threads additions : Nat) :
    Option (Outcome Report) := do
  let members := List.range threads
  let rounds := Registry.length Defaults.maxThreads + 64
  let setup : Setup := ⟨capabilities, none, none, .none⟩
  let (r, _) ← (life setup members).run (World.initial backend Defaults.maxThreads rounds)
  let tasks := List.replicate additions (Atomic.Task.add .relaxed 1)
  let total ← Atomic.runInTurn (List.replicate threads tasks) 0
  return r.map fun s => ⟨s.1, total, s.2⟩

end SyncCore.Script.Threads.Pool
