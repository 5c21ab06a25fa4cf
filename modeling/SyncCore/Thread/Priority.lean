import SyncCore.Platform.Info

/-!
# Priorities

A thread has one of four levels. A backend has a range of native priorities,
and the levels are spread over it: the lowest level is one end of the range,
the highest the other, and the two in between lie at one and two thirds of
it. The arithmetic is done in 64-bit words, and quotients are cut off towards
zero.
-/

set_option autoImplicit false

namespace SyncCore

inductive Priority where
  | low
  | normal
  | high
  | realtime
  deriving DecidableEq, Repr

namespace Priority

def all : List Priority := [.low, .normal, .high, .realtime]

def name : Priority → String
  | .low => "Low"
  | .normal => "Normal"
  | .high => "High"
  | .realtime => "Realtime"

def ofName? (s : String) : Option Priority := all.find? (fun p => p.name == s)

def word : Priority → Int32
  | .low => 0
  | .normal => 1
  | .high => 2
  | .realtime => 3

def ofWord (w : Int32) : Priority :=
  if w = 0 then .low else if w = 2 then .high else if w = 3 then .realtime else .normal

theorem ofWord_word (p : Priority) : ofWord p.word = p := by cases p <;> decide

def wide (p : Priority) (l : ThreadLimits) : Int64 :=
  let low := l.minPriority.toInt64
  let span := l.maxPriority.toInt64 - low
  match p with
  | .low => low
  | .normal => low + span / 3
  | .high => low + span * 2 / 3
  | .realtime => low + span

def toNative (p : Priority) (l : ThreadLimits) : Int32 := (p.wide l).toInt32

end Priority

end SyncCore
