import SyncCore.Thread.Attributes
import SyncCore.Thread.State

/-!
# Thread objects

What is known of one logical thread. The name and the stack size never
change. The state and the priority are words that several threads access; the
gate, the mark of a detached thread, the binding to a backend thread and the
value the thread's function returned are each written by one side and read by
the other.
-/

set_option autoImplicit false

namespace SyncCore

/-- Objects are numbered from 1 in the order they are made. -/
abbrev ObjectId := Nat

abbrev ThreadNo := Nat

/-- The backend's identity of a thread, compared by value. -/
abbrev Handle := Nat

structure Binding where
  thread : ThreadNo
  handle : Handle
  deriving DecidableEq, Repr

structure ThreadObject (V : Type) where
  name : String
  stackSize : UInt64
  priorityWord : Int32
  stateWord : Int32
  gateOpen : Bool
  detached : Bool
  binding : Option Binding
  returned : Option V
  deriving Repr

namespace ThreadObject

variable {V : Type}

def ofAttributes (a : Attributes) : ThreadObject V :=
  ⟨a.name, a.stackSize, a.priority.word, ThreadState.created.word, false, false, none, none⟩

def state (o : ThreadObject V) : ThreadState := .ofWord o.stateWord

def priority (o : ThreadObject V) : Priority := .ofWord o.priorityWord

def handle (o : ThreadObject V) : Option Handle := o.binding.map (·.handle)

def exchangeState (o : ThreadObject V) (expected desired : ThreadState) : Bool × ThreadObject V :=
  if o.stateWord = expected.word then (true, { o with stateWord := desired.word }) else (false, o)

def label (id : ObjectId) : String := "#" ++ toString id

def idText (id : ObjectId) : String := Text.wrapped "ObjectId" (toString id)

def debugText (id : ObjectId) (handleText : Handle → String) (o : ThreadObject V) : String :=
  Text.record "ThreadObject"
    [("id", idText id), ("name", Text.quoted o.name), ("state", o.state.name),
     ("priority", o.priority.name), ("handle", Text.optional (o.handle.map handleText))]

end ThreadObject

end SyncCore
