import SyncCore.Manager.Action

/-!
# Creating a thread

The backend thread is started first, then bound to its object and registered,
and only then is the gate opened behind which it waits. A thread that cannot
be registered is detached and left to run to its end.
-/

set_option autoImplicit false

namespace SyncCore.Manager.Create

structure Request where
  id : ObjectId
  attributes : Attributes
  /-- The priority in the backend's range. -/
  native : Int32
  deriving DecidableEq, Repr

def Request.config (r : Request) : SpawnConfig :=
  ⟨r.attributes.name, r.attributes.stackSize, r.native⟩

/-- The creation that attributes ask for, of the object with the given number.
It is refused before that object is made. -/
def request (limits : ThreadLimits) (a : Attributes) (id : ObjectId) : Outcome Request :=
  (a.resolve limits).map fun a => ⟨id, a, a.priority.toNative limits⟩

inductive Pc where
  | spawn
  | spawnWarn (e : ErrorKind)
  | bind (b : Binding)
  | register
  | registerWarn (e : ErrorKind)
  | disown (e : ErrorKind)
  | detachLook (e : ErrorKind)
  | detachCall (e : ErrorKind)
  | detachWarn (e cause : ErrorKind)
  | releaseGate (e : ErrorKind)
  | openGate
  | announce
  | done (r : Outcome Unit)
  deriving DecidableEq

def start : Pc := .spawn

def spawnError (e : ErrorKind) : ErrorKind :=
  if e = .outOfMemory then .outOfMemory else .threadCreateFailed

def quotedName (r : Request) : String := "'" ++ r.attributes.name ++ "'"

def next {V : Type} (r : Request) : Machine (interface V) Pc (Outcome Unit)
  | .spawn => .act (.backend (.spawn r.config)) fun (a : Outcome Binding) =>
      match a with
      | .ok b => .bind b
      | .error e => .spawnWarn e
  | .spawnWarn e =>
    .act (.log (Log.warn ("thread " ++ quotedName r ++ ": backend spawn failed: " ++ e.message)))
      fun (_ : Unit) => .done (.error (spawnError e))
  | .bind b => .act (.cell (.bind b)) fun (_ : Unit) => .register
  | .register => .act (.table .register) fun (a : Outcome Unit) =>
      match a with
      | .ok _ => .openGate
      | .error e => .registerWarn e
  | .registerWarn e =>
    .act (.log (Log.warn (threadLabel r.id ++ " " ++ quotedName r
        ++ ": started but not registered (" ++ e.message ++ "), detaching")))
      fun (_ : Unit) => .disown e
  | .disown e => .act (.cell .markDetached) fun (_ : Unit) => .detachLook e
  | .detachLook e => .act (.cell .isBound) fun (bound : Bool) =>
      if bound then .detachCall e else .releaseGate e
  | .detachCall e => .act (.backend .detach) fun (a : Outcome Unit) =>
      match a with
      | .ok _ => .releaseGate e
      | .error cause => .detachWarn e cause
  | .detachWarn e cause => .act (.log (detachWarning r.id cause)) fun (_ : Unit) => .releaseGate e
  | .releaseGate e => .act (.cell .openGate) fun (_ : Unit) => .done (.error e)
  | .openGate => .act (.cell .openGate) fun (_ : Unit) => .announce
  | .announce =>
    .act (.log (Log.debug (threadLabel r.id ++ " " ++ quotedName r ++ " created: stack "
        ++ toString r.attributes.stackSize.toNat ++ ", priority " ++ r.attributes.priority.name)))
      fun (_ : Unit) => .done (.ok ())
  | .done a => .done a

end SyncCore.Manager.Create
