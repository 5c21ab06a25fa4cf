import SyncCore.Error
import SyncCore.Log
import SyncCore.Platform.Info

/-!
# The hosted backend

Each thread is a thread of the operating system, here one whose ordinary
scheduling class has the single priority 0. A thread can be joined or
detached once; after that it is out of reach. A thread that has ended can
still be joined, but it has no priority any more. Threads cannot be suspended.
-/

set_option autoImplicit false

namespace SyncCore.Hosted

def defaultInfo : PlatformInfo where
  kind := .linux
  arch := .current
  capabilities := .threads ||| .mutex ||| .threadLocal ||| .atomics ||| .timers ||| .nativeJoin
  coreCount := 0
  thread := ⟨16384, 0, 2097152, 0, 0⟩

/-- Bytes of memory that the machine is taken to have. A stack must be smaller. -/
def memory : UInt64 := 0x800000000

def spawn (stackSize : UInt64) : Outcome Unit :=
  if stackSize < memory then .ok () else .error .threadCreateFailed

/-- Setting the priority of a thread. One that has ended, or has been joined or
detached, is not found, whatever the priority. -/
def setPriority (attached ended : Bool) (n : Int32) : Outcome Unit :=
  if !attached || ended then .error .notFound
  else if n = 0 then .ok ()
  else .error .invalidParameter

/-- A new thread starts even if its priority cannot be set; the failure is only noted. -/
def priorityNote (name : String) (n : Int32) : Option Log.Record :=
  match setPriority true false n with
  | .ok _ => none
  | .error e =>
    some (Log.debug ("'" ++ name ++ "': initial priority " ++ toString n.toInt
      ++ " not applied: " ++ e.message))

def join (attached returned : Bool) : Outcome Unit :=
  if attached && returned then .ok () else .error .threadJoinFailed

def handleText : String := Text.wrapped "ThreadId" "_"

def debugText (attached : Bool) : String :=
  Text.record "StdThread" [("id", handleText), ("attached", Text.flag attached)]

end SyncCore.Hosted
