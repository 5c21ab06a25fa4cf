import SyncCore.Error
import SyncCore.Text.Quoted
import SyncCore.Thread.Priority

/-!
# Attributes of a new thread

A thread is asked for by a priority, a stack size and a name. Before anything
is started the attributes are resolved: an empty name and a stack of size 0
are replaced by defaults, a name with a null character is refused, and so is
a stack outside the backend's limits.
-/

set_option autoImplicit false

namespace SyncCore

namespace Defaults

def maxThreads : Nat := 32

def threadName : String := "tt_thread"

/-- Milliseconds between two looks at a thread that is waited for. -/
def pollInterval : UInt32 := 1

end Defaults

structure Attributes where
  priority : Priority
  /-- Bytes of stack, 0 for the backend's default. -/
  stackSize : UInt64
  name : String
  deriving DecidableEq, Repr

namespace Attributes

def default : Attributes := ⟨.normal, 0, Defaults.threadName⟩

instance : Inhabited Attributes := ⟨default⟩

def withPriority (a : Attributes) (p : Priority) : Attributes := { a with priority := p }
def withStackSize (a : Attributes) (n : UInt64) : Attributes := { a with stackSize := n }
def withName (a : Attributes) (s : String) : Attributes := { a with name := s }

def ofLimits (l : ThreadLimits) : Attributes := default.withStackSize l.defaultStack

def effectiveName (a : Attributes) : String :=
  if a.name.isEmpty then Defaults.threadName else a.name

def effectiveStack (a : Attributes) (l : ThreadLimits) : UInt64 :=
  if a.stackSize = 0 then l.defaultStack else a.stackSize

def stackFits (n : UInt64) (l : ThreadLimits) : Bool :=
  n = 0 || (l.minStack ≤ n && (l.maxStack = 0 || n ≤ l.maxStack))

def resolve (a : Attributes) (l : ThreadLimits) : Outcome Attributes :=
  if a.effectiveName.toList.contains '\x00' then .error .invalidParameter
  else if stackFits (a.effectiveStack l) l then
    .ok ⟨a.priority, a.effectiveStack l, a.effectiveName⟩
  else .error .invalidParameter

def debugText (a : Attributes) : String :=
  Text.record "Attributes"
    [("priority", a.priority.name), ("stack_size", toString a.stackSize.toNat),
     ("name", Text.quoted a.name)]

end Attributes

end SyncCore
