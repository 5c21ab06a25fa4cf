import SyncCore.Manager.Action

/-!
# Joining a thread

Where the backend can wait for a thread the wait is one call. Elsewhere the
state is read again and again with a short sleep in between, or a yield if
the sleep fails. A value is taken only once Terminated has been seen, and a
handle can be joined once.
-/

set_option autoImplicit false

namespace SyncCore.Manager.Join

inductive Pc (V : Type) where
  | mark
  | look
  | wait
  | waitWarn (e : ErrorKind)
  | poll
  | sleep
  | yield
  | confirm
  | take
  | announce (v : Option V)
  | done (r : Outcome V)
  deriving DecidableEq

/-- A foreign handle is refused, and so is one that was joined before. -/
def start {V : Type} (own joined : Bool) : Pc V :=
  if own then if joined then .done (.error .threadJoinFailed) else .mark
  else .done (.error .invalidParameter)

def next {V : Type} (id : ObjectId) (native : Bool) : Machine (interface V) (Pc V) (Outcome V)
  | .mark => .act .markJoined fun (_ : Unit) => if native then .look else .poll
  | .look => .act (.cell .isBound) fun (bound : Bool) =>
      if bound then .wait else .done (.error .notInitialized)
  | .wait => .act (.backend .join) fun (r : Outcome Unit) =>
      match r with
      | .ok _ => .confirm
      | .error e => .waitWarn e
  | .waitWarn e =>
    .act (.log (Log.warn (threadLabel id ++ ": backend join failed: " ++ e.message)))
      fun (_ : Unit) => .done (.error .threadJoinFailed)
  | .poll => .act (.cell .loadState) fun (s : ThreadState) =>
      if s = .terminated then .confirm else .sleep
  | .sleep => .act (.backend (.sleep Defaults.pollInterval)) fun (r : Outcome Unit) =>
      match r with
      | .ok _ => .poll
      | .error _ => .yield
  | .yield => .act (.backend .yield) fun (_ : Unit) => .poll
  | .confirm => .act (.cell .loadState) fun (s : ThreadState) =>
      if s = .terminated then .take else .done (.error .threadJoinFailed)
  | .take => .act (.cell .takeValue) fun (v : Option V) => .announce v
  | .announce v => .act (.log (Log.debug (threadLabel id ++ " joined"))) fun (_ : Unit) =>
      match v with
      | some v => .done (.ok v)
      | none => .done (.error .threadJoinFailed)
  | .done r => .done r

end SyncCore.Manager.Join
