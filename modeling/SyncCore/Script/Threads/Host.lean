import SyncCore.Backend.Hosted
import SyncCore.Script.Threads.World

/-!
# Backend calls without arms

The calls of the two backends on a script's world. A call on the mock backend
is a run of its machine; a task that the backend holds up stops in the middle
of its call and goes on when it is let go.
-/

set_option autoImplicit false

namespace SyncCore.Script.Threads

variable {V : Type}

def addWorker (routine : Routine) (task : Mock.TaskId) : Run V Nat := do
  let k := (← get).workers.length
  let worker : Worker := ⟨task, k + 1, routine, .held⟩
  modify fun w => { w with workers := w.workers ++ [worker] }
  return k

def addThread (task : Mock.TaskId) (handle : Handle) (k : Nat) : Run V Binding := do
  let t := (← get).threads.length
  let thread : HostThread := ⟨task, handle, true, k⟩
  modify fun w => { w with threads := w.threads ++ [thread] }
  return ⟨t, handle⟩

structure HostContext where
  thread : Option ThreadNo
  routine : Routine

def HostContext.of (t : ThreadNo) : HostContext := ⟨some t, .bare⟩

def HostContext.none : HostContext := ⟨.none, .bare⟩

def takeHandle (c : HostContext) : Run V Bool := do
  let t ← found c.thread
  let attached := (← threadAt t).attached
  modify (World.modifyThread t fun x => { x with attached := false })
  return attached

def endOf (t : ThreadNo) : Run V Bool := do
  match (← workerAt (← threadAt t).worker).stage with
  | .ended returned => return returned
  | _ => failure

def performHost (c : HostContext) : (a : Mock.HostAction) → Run V a.Answer
  | .start t => do
    let _ ← addWorker c.routine t
    return true
  | .takeHandle => takeHandle c
  | .await => do endOf (← found c.thread)
  | .pause _ => return ()

def performShared (p me : Nat) (a : Mock.SharedAction) : Run V (Option a.Answer) := do
  match Mock.effect me a (← platformAt p).mock with
  | none => return none
  | some (x, s) =>
    modify (World.modifyPlatform p fun q => { q with mock := s })
    match a with
    | .record c => modify (World.say c.record)
    | _ => pure ()
    return some x

def mockDrive (p : Nat) (info : PlatformInfo) (task : Mock.TaskId) (me : Nat) (c : HostContext) :
    Nat → Mock.Pc → Run V (Mock.Pc ⊕ Mock.Reply)
  | 0, _ => failure
  | n + 1, pc =>
    match Mock.next info task pc with
    | .done r => return .inr r
    | .act (.host a) resume => do
      let x ← performHost c a
      mockDrive p info task me c n (resume x)
    | .act (.shared a) resume => do
      match ← performShared p me a with
      | none => return .inl pc
      | some x => mockDrive p info task me c n (resume x)

def mockGo (caller : Caller) (p : Nat) (c : HostContext) (pc : Mock.Pc) :
    Run V (Mock.Pc ⊕ Mock.Reply) := do
  let (task, me) ← identity caller
  let info := (← platformAt p).own
  mockDrive p info task me c (← get).rounds pc

def mockCall (caller : Caller) (p : Nat) (c : HostContext) (r : Mock.Request) :
    Run V (Mock.Pc ⊕ Mock.Reply) := do
  let (task, _) ← identity caller
  mockGo caller p c (Mock.start (← platformAt p).own task r)

def mockOutcome (caller : Caller) (p : Nat) (c : HostContext) (r : Mock.Request) :
    Run V (Outcome Unit) := do
  match ← mockCall caller p c r with
  | .inr (.outcome a) => return a
  | _ => failure

def plainSpawn (p : Nat) (routine : Routine) (name : String) (stackSize : UInt64)
    (priority : Int32) : Run V (Outcome Binding) := do
  match (← get).backend with
  | .hosted =>
    match Hosted.spawn stackSize with
    | .error e => return .error e
    | .ok _ =>
      let k ← addWorker routine 0
      let b ← addThread 0 (k + 1) k
      match Hosted.priorityNote name priority with
      | some record => modify (World.say record)
      | none => pure ()
      return .ok b
  | _ =>
    let k := (← get).workers.length
    match ← mockCall .main p ⟨none, routine⟩ (.spawn name stackSize priority) with
    | .inr (.spawned t) => return .ok (← addThread t t.toNat k)
    | .inr (.outcome (.error e)) => return .error e
    | _ => failure

def optionalCall (p : Nat) (t : ThreadNo) (mock : Mock.TaskId → Mock.Request)
    (hosted : Run V (Outcome Unit)) : Run V (Outcome Unit) := do
  match (← get).backend with
  | .mock => mockOutcome .main p (.of t) (mock (← threadAt t).task)
  | .bare => return .error .notImplemented
  | .hosted => hosted

def plainJoin (p : Nat) (t : ThreadNo) : Run V (Outcome Unit) :=
  optionalCall p t .join do
    if ← takeHandle (.of t) then return Hosted.join true (← endOf t)
    else return Hosted.join false true

def plainDetach (p : Nat) (t : ThreadNo) : Run V (Outcome Unit) := do
  match (← get).backend with
  | .hosted =>
    let _ ← takeHandle (.of t)
    return .ok ()
  | _ => mockOutcome .main p (.of t) (.detach (← threadAt t).task)

def plainSetPriority (p : Nat) (t : ThreadNo) (n : Int32) : Run V (Outcome Unit) :=
  optionalCall p t (.setPriority · n) do
    let thread ← threadAt t
    return Hosted.setPriority thread.attached ((← get).hasEnded thread.worker) n

def plainHold (p : Nat) (t : ThreadNo) : Manager.Hold → Run V (Outcome Unit)
  | .suspend => optionalCall p t .suspend (return .error .notImplemented)
  | .resume => optionalCall p t .resume (return .error .notImplemented)

def plainPause (caller : Caller) (p : Nat) (r : Mock.Request) :
    Run V (Mock.Pc ⊕ Mock.Reply) := do
  match (← get).backend with
  | .hosted => return .inr (.outcome (.ok ()))
  | _ => mockCall caller p .none r

def plainCurrent (caller : Caller) : Run V Handle := do
  let (task, me) ← identity caller
  match (← get).backend with
  | .hosted => return me
  | _ => return task.toNat

def plainLock (backend : Backend) : Outcome RawLock :=
  match backend with
  | .mock => .ok .newFlag
  | .bare => .error .notImplemented
  | .hosted => .ok .newMonitor

def joinsNatively (backend : Backend) (p : Platform) : Bool :=
  match backend with
  | .bare => false
  | _ => p.own.supports .nativeJoin

end SyncCore.Script.Threads
