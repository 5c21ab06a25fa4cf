import SyncCore.Script.Threads.Calls

/-!
# The parts that a step names

A step names the parts it is about by their aliases and is refused if one of
them is not there, or is a handle that a call in progress has to itself. What
is reported of a part is read off the world.
-/

set_option autoImplicit false

namespace SyncCore.Script.Threads

variable {V : Type}

/-- A handle as it is reported to a caller. The hosted backend's identities
are numbered in the order they are shown. -/
def nameHandle (caller : Caller) (h : Handle) : Run V HandleName := do
  let w ← get
  match w.backend with
  | .hosted =>
    let (_, me) ← identity caller
    if h = me then return .self
    match w.shown.findIdx? (· == h) with
    | some i => return .number (i + 1)
    | none =>
      set { w with shown := w.shown ++ [h] }
      return .number (w.shown.length + 1)
  | _ => return .number h

def viewOf (id : ObjectId) : Run V View := do
  let o ← objectAt id
  let handle ← match o.handle with
    | some h => do pure (some (← nameHandle .main h))
    | none => pure none
  return ⟨id, o.name, o.state, o.priority, handle, o.stackSize⟩

def selfView (id : ObjectId) : Run V View := do
  let o ← objectAt id
  return ⟨id, o.name, o.state, o.priority, none, o.stackSize⟩

def withPart {α : Type} (as : Aliases α) (k : String) (run : α → Run V (Reply V)) :
    Run V (Reply V) :=
  match as.lookup k with
  | some x => run x
  | none => return .refused .noSuch

def withManager (m : String) (run : Nat → Run V (Reply V)) : Run V (Reply V) := do
  withPart (← get).managers m run

def withPlatform (p : String) (run : Nat → Run V (Reply V)) : Run V (Reply V) := do
  withPart (← get).platformNames p run

/-- Runs with a handle that no call in progress has to itself. -/
def withOwner (h : String) (run : Owner → Run V (Reply V)) : Run V (Reply V) := do
  withPart (← get).owners h fun o => if o.taken then return .refused .inUse else run o

/-- Runs with a handle that no call in progress uses at all. -/
def withFreeOwner (h : String) (run : Owner → Run V (Reply V)) : Run V (Reply V) :=
  withOwner h fun o => if o.readers > 0 then return .refused .inUse else run o

def whileReading {α : Type} (h : String) (run : Run V α) : Run V α := do
  modify (World.modifyOwner h fun o => { o with readers := o.readers + 1 })
  let r ← run
  modify (World.modifyOwner h fun o => { o with readers := o.readers - 1 })
  return r

def whileTaken {α : Type} (h : String) (run : Run V α) : Run V α := do
  modify (World.modifyOwner h fun o => { o with taken := true })
  let r ← run
  modify (World.modifyOwner h fun o => { o with taken := false })
  return r

def whileJoining {α : Type} (j : JoinPlan V) (run : Run V α) : Run V α := do
  modify fun w => { w with joins := j :: w.joins }
  let r ← run
  modify fun w => { w with joins := w.joins.tail }
  return r

def withTable (t : Target) (run : Nat → Run V (Reply V)) : Run V (Reply V) := do
  match t with
  | .registry reg => withPart (← get).tableNames reg run
  | .manager m => withManager m fun c => do run (← coreAt c).table

end SyncCore.Script.Threads
