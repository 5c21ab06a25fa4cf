/-!
# Thread states

A thread is created, runs, may be suspended and resumed while it runs, and
ends. The state is kept as a word in an atomic cell.
-/

set_option autoImplicit false

namespace SyncCore

inductive ThreadState where
  | created
  | running
  | suspended
  | terminated
  deriving DecidableEq, Repr

namespace ThreadState

def name : ThreadState → String
  | .created => "Created"
  | .running => "Running"
  | .suspended => "Suspended"
  | .terminated => "Terminated"

def word : ThreadState → Int32
  | .created => 0
  | .running => 1
  | .suspended => 2
  | .terminated => 3

/-- The state of a word. A word that stands for none counts as ended. -/
def ofWord (w : Int32) : ThreadState :=
  if w = 0 then .created else if w = 1 then .running else if w = 2 then .suspended
  else .terminated

theorem ofWord_word (s : ThreadState) : ofWord s.word = s := by cases s <;> decide

theorem word_of_ofWord {w : Int32} {s : ThreadState} (h : ofWord w = s) (hs : s ≠ .terminated) :
    w = s.word := by
  unfold ofWord at h
  split at h
  · subst h; assumption
  · split at h
    · subst h; assumption
    · split at h
      · subst h; assumption
      · exact absurd h.symm hs

end ThreadState

end SyncCore
