import SyncCore.Mutex.State
import SyncCore.Script.Arm

/-!
# Scripts for one mutex

A script drives one mutex step by step. Raw calls pass through arms, so steps
can be placed inside a raw call. A step that would wait for ever is refused
instead. One step lets a second thread wait for the lock and gives it up to
that thread.
-/

set_option autoImplicit false

namespace SyncCore.Script.OneMutex

inductive Route where
  | lock
  | raw
  | scoped
  deriving DecidableEq, Repr

inductive Step where
  | call (op : Mutex.Op)
  | guard (g : String)
  | dropGuard (g : String)
  | releaseGuard (g : String)
  | scoped (body : List Step)
  | raw (op : LockOp)
  | contend (route : Route)
  | arm (call : String) (times : Nat) (body : List Step) (verdict : Verdict)
  | malformed
  deriving Inhabited

inductive Reply where
  | unit
  | reply (r : LockReply)
  | refused (r : Refusal)
  | results (rs : List Reply)
  | contended (waited : Bool) (unlock : LockReply) (thread : List LockReply)
  deriving Inhabited

structure World where
  mutex : Mutex.State RawLock
  /-- Whether raw calls pass through the arms. -/
  wrapped : Bool
  guards : List String
  armory : Armory Step Reply
  log : List Log.Record

instance : Armed World Step Reply := ⟨World.armory, fun w a => { w with armory := a }⟩

abbrev Run := StateT World Option

abbrev Nested := List Step → Run (List Reply)

def mainThread : Nat := 0
def secondThread : Nat := 1

def plainCall (me : Nat) (op : LockOp) : Run op.Answer := fun w =>
  (w.mutex.raw.call me op).map fun r => (r.1, { w with mutex := { w.mutex with raw := r.2 } })

def rawCall (nested : Nested) (op : LockOp) : Run op.Answer := do
  if (← get).wrapped then armedLockCall (fire nested) (plainCall mainThread) op
  else plainCall mainThread op

def perform (nested : Nested) : (a : Mutex.Action) → Run a.Answer
  | .raw op => rawCall nested op
  | .load => do return (← get).mutex.status
  | .store s => modify fun w => { w with mutex := { w.mutex with status := s } }
  | .exchange e d => do
    let found := (← get).mutex.status
    if found = e then modify fun w => { w with mutex := { w.mutex with status := d } }
    return found

def operate (nested : Nested) (rounds : Nat) (op : Mutex.Op) : Run LockReply :=
  Mutex.next.drive (perform nested) rounds (Mutex.start op)

def wouldBlock (w : World) : Bool := w.mutex.isInitialized && w.mutex.raw.held

def dropGuard (nested : Nested) (rounds : Nat) : Run Unit := do
  match ← operate nested rounds .release with
  | .outcome (.error e) =>
    modify fun w => { w with log := w.log ++ [Log.warn (Mutex.dropWarning e)] }
  | _ => return ()

/-- One operation of the second thread, which no arm sees. -/
def secondRun (op : Mutex.Op) : Run LockReply := fun w =>
  (Mutex.run secondThread op w.mutex).map fun r => (r.1, { w with mutex := r.2 })

def secondThreadCalls : Route → Run (List LockReply)
  | .lock => do
    let a ← secondRun .lock
    let b ← secondRun .unlock
    return [a, b]
  | .raw => do
    let a ← plainCall secondThread .lock
    let b ← plainCall secondThread .unlock
    return [.outcome a, .outcome b]
  | .scoped => do
    match ← secondRun .lock with
    | .outcome (.ok _) => return [← secondRun .release]
    | r => return [r]

def stepWith (nested : Nested) (rounds : Nat) : Step → Run Reply
  | .call .lock => do
    if wouldBlock (← get) then return .refused .wouldBlock
    return .reply (← operate nested rounds .lock)
  | .call op => do return .reply (← operate nested rounds op)
  | .guard g => do
    if wouldBlock (← get) then return .refused .wouldBlock
    match ← operate nested rounds .lock with
    | .outcome (.ok _) =>
      if g ∈ (← get).guards then dropGuard nested rounds
      else modify fun w => { w with guards := g :: w.guards }
      return .reply .ok
    | r => return .reply r
  | .dropGuard g => do
    if g ∈ (← get).guards then
      modify fun w => { w with guards := w.guards.erase g }
      dropGuard nested rounds
      return .unit
    return .refused .noSuch
  | .releaseGuard g => do
    if g ∈ (← get).guards then
      modify fun w => { w with guards := w.guards.erase g }
      return .reply (← operate nested rounds .release)
    return .refused .noSuch
  | .scoped body => do
    if wouldBlock (← get) then return .refused .wouldBlock
    match ← operate nested rounds .lock with
    | .outcome (.ok _) =>
      let rs ← nested body
      match ← operate nested rounds .release with
      | .outcome (.ok _) => return .results rs
      | r => return .reply r
    | r => return .reply r
  | .raw .lock => do
    if (← get).mutex.raw.held then return .refused .wouldBlock
    return .reply (← lockReply (rawCall nested) .lock)
  | .raw op => do return .reply (← lockReply (rawCall nested) op)
  | .contend route => do
    if wouldBlock (← get) then
      let unlock ← rawCall nested .unlock
      return .contended true (.outcome unlock) (← secondThreadCalls route)
    return .refused .notHeld
  | .arm call times body verdict => do
    addArms times ⟨call, body, verdict⟩
    return .unit
  | .malformed => return .refused .malformed

def exec : Nat → Step → Run Reply
  | 0, _ => failure
  | n + 1, step => stepWith (fun body => body.mapM (exec n)) n step

structure Entry where
  reply : Reply
  locked : Bool
  initialized : Bool
  hooks : List (String × List Reply)
  debug : Option String
  log : List Log.Record

def debugText? (w : World) : Option String :=
  if w.wrapped then none
  else match w.mutex.raw with
    | .spin word => some (Spin.debugText word)
    | _ => none

def entry (rounds : Nat) (step : Step) : Run Entry := do
  modify fun w => { w with armory.hooks := [], log := [] }
  let r ← exec rounds step
  let w ← get
  return ⟨r, w.mutex.isLocked, w.mutex.isInitialized, w.armory.hooks, debugText? w, w.log⟩

mutual

def Step.weight : Step → Nat
  | .arm _ times body _ => 1 + (times + 1) * (1 + weights body)
  | .scoped body => 1 + weights body
  | _ => 1

def Step.weights : List Step → Nat
  | [] => 0
  | s :: ss => s.weight + Step.weights ss

end

def World.initial (mutex : Mutex.State RawLock) (wrapped : Bool) : World :=
  ⟨mutex, wrapped, [], ⟨[], []⟩, []⟩

def run (mutex : Mutex.State RawLock) (wrapped : Bool) (steps : List Step) : Option (List Entry) :=
  let rounds := 32 + 16 * Step.weights steps
  ((steps.mapM (entry rounds)).run (World.initial mutex wrapped)).map (·.1)

end SyncCore.Script.OneMutex
