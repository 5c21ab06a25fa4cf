import SyncCore.Manager.Current
import SyncCore.Script.Threads.Host
import SyncCore.Script.Threads.Tables

/-!
# Workers

A worker's thread carries out its routine without arms. It stops where its
function begins and stays there until it is told how the function ends.
-/

set_option autoImplicit false

namespace SyncCore.Script.Threads

variable {V : Type}

structure Context where
  object : ObjectId
  core : Nat
  owner : String

def performCell (id : ObjectId) (a : Manager.CellAction V) : Run V a.Answer := do
  let r := a.perform (← objectAt id)
  modify (World.modifyObject id fun _ => r.2)
  return r.1

def performTableCall (nested : Nested V) (caller : Caller) (c : Context) :
    (t : Manager.TableCall) → Run V t.Answer
  | .register => do tableOutcome nested caller (← coreAt c.core).table (.register c.object)
  | .unregister => do tableOutcome nested caller (← coreAt c.core).table (.unregister c.object)
  | .find h => do tableFind nested caller (← coreAt c.core).table h

def noNested : Nested V := fun _ => failure

def performWorker (k : Nat) (c : Context) (ending : Option (Ending V)) :
    (a : Manager.Action V) → Run V a.Answer
  | .cell a => performCell c.object a
  | .table t => performTableCall noNested (.worker k) c t
  | .log r => modify (World.say r)
  | .backend .current => plainCurrent (.worker k)
  | .backend .yield => do
    match ← plainPause (.worker k) (← coreAt c.core).platform .yield with
    | .inr _ => return ()
    | .inl _ => failure
  | .backend _ => failure
  | .markJoined => failure
  | .runBody =>
    match ending with
    | some (.value v) => return some v
    | some .panic => return none
    | none => failure

def routineToBody (k : Nat) (c : Context) : Nat → Manager.Routine.Pc V → Run V Unit
  | 0, _ => failure
  | n + 1, pc =>
    match Manager.Routine.next c.object pc with
    | .done _ => return ()
    | .act .runBody _ => return ()
    | .act a resume => do
      let x ← performWorker k c none a
      routineToBody k c n (resume x)

def setStage (k : Nat) (s : Stage) : Run V Unit :=
  modify (World.modifyWorker k fun x => { x with stage := s })

def beginWorker (k : Nat) : Run V Unit := do
  let worker ← workerAt k
  match worker.stage with
  | .held =>
    match worker.routine with
    | .managed o c => routineToBody k ⟨o, c, ""⟩ (← get).rounds Manager.Routine.start
    | .bare => pure ()
    setStage k .running
  | _ => return ()

def Ending.returns : Ending V → Bool
  | .value _ => true
  | .panic => false

def finishWorker (k : Nat) (e : Ending V) : Run V Unit := do
  beginWorker k
  match (← workerAt k).routine with
  | .managed o c =>
    let context : Context := ⟨o, c, ""⟩
    (Manager.Routine.next o).drive (performWorker k context (some e)) (← get).rounds .body
  | .bare => pure ()
  setStage k (.ended e.returns)

def isRunning (k : Nat) : Run V Bool := do
  match (← workerAt k).stage with
  | .running => return true
  | _ => return false

def isParked (k : Nat) : Run V Bool := do
  match (← workerAt k).stage with
  | .parked _ => return true
  | _ => return false

def isManaged (k : Nat) : Run V Bool := do
  match (← workerAt k).routine with
  | .managed _ _ => return true
  | .bare => return false

/-- A parked call goes on as far as it can. Nobody waits for its answer. -/
def resumeParked (k : Nat) : Run V Unit := do
  match (← workerAt k).stage with
  | .parked call =>
    match ← mockGo (.worker k) call.platform .none call.pc with
    | .inl pc => setStage k (.parked { call with pc := pc })
    | .inr r => setStage k (.parked { call with pc := .done r })
  | _ => return ()

def resumeAllParked : Run V Unit := do
  (List.range (← get).workers.length).forM resumeParked

def wakeWorker (k : Nat) : Run V (Option (Reply V)) := do
  match (← workerAt k).stage with
  | .parked call =>
    match ← mockGo (.worker k) call.platform .none call.pc with
    | .inl pc =>
      setStage k (.parked { call with pc := pc })
      return none
    | .inr (.outcome r) =>
      setStage k .running
      return some (if call.yields then .unit else .outcome r)
    | .inr _ => failure
  | _ => return none

def workerPause (k p : Nat) (yields : Bool) (r : Mock.Request) : Run V (Reply V) := do
  match ← plainPause (.worker k) p r with
  | .inl pc =>
    setStage k (.parked ⟨p, pc, yields⟩)
    return .parked
  | .inr (.outcome r) => return if yields then .unit else .outcome r
  | .inr _ => failure

end SyncCore.Script.Threads
