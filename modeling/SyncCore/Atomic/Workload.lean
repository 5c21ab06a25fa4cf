import SyncCore.Atomic.Cell

/-!
# Threads that share one cell

A thread has a list of tasks on a shared cell: add, subtract, or replace the
word by a larger one with an exchange that is tried again with the word it
found until it succeeds. The threads here run one after the other.
-/

set_option autoImplicit false

namespace SyncCore.Atomic

inductive Task where
  | add (order : MemoryOrder) (delta : Int32)
  | sub (order : MemoryOrder) (delta : Int32)
  /-- The first look at the word has an order of its own. -/
  | exchangeAdd (look order : MemoryOrder) (delta : Int32)
  deriving DecidableEq, Repr

def Task.addByExchange (order : MemoryOrder) (delta : Int32) : Task :=
  .exchangeAdd order order delta

inductive Worker where
  | todo (tasks : List Task)
  | trying (order : MemoryOrder) (delta expected : Int32) (tasks : List Task)
  deriving DecidableEq, Repr

def Worker.next : Machine interface Worker Unit
  | .todo [] => .done ()
  | .todo (.add o d :: ts) => .act (.add o d) fun (_ : Int32) => .todo ts
  | .todo (.sub o d :: ts) => .act (.sub o d) fun (_ : Int32) => .todo ts
  | .todo (.exchangeAdd l o d :: ts) => .act (.load l) fun (v : Int32) => .trying o d v ts
  | .trying o d v ts => .act (.exchange o v (v + d)) fun (r : Exchanged) =>
      if r.success then .todo ts else .trying o d r.expected ts

def runAlone (tasks : List Task) (v : Int32) : Option Int32 :=
  match Worker.next.solo effect (2 * tasks.length) (.todo tasks) v with
  | .finished _ v => some v
  | _ => none

def runInTurn (threads : List (List Task)) (v : Int32) : Option Int32 :=
  threads.foldlM (fun v tasks => runAlone tasks v) v

end SyncCore.Atomic
