/-!
# Error kinds

Every fallible operation of the library answers with one of sixteen kinds.
A backend's own error code is never kept: it is mapped onto the closest
kind. The kinds are ordered as they are listed here.
-/

set_option autoImplicit false

namespace SyncCore

inductive ErrorKind where
  | nullReference
  | invalidParameter
  | notInitialized
  | alreadyInitialized
  | busy
  | bufferFull
  | bufferEmpty
  | outOfMemory
  | timeout
  | notFound
  | threadCreateFailed
  | threadJoinFailed
  | threadStillActive
  | platformNotSupported
  | notImplemented
  | unknown
  deriving DecidableEq, Repr

abbrev Outcome (α : Type) := Except ErrorKind α

instance instDecidableEqExcept {ε α : Type} [DecidableEq ε] [DecidableEq α] :
    DecidableEq (Except ε α)
  | .ok a, .ok b => decidable_of_iff (a = b) ⟨congrArg Except.ok, Except.ok.inj⟩
  | .error e, .error f => decidable_of_iff (e = f) ⟨congrArg Except.error, Except.error.inj⟩
  | .ok _, .error _ => .isFalse nofun
  | .error _, .ok _ => .isFalse nofun

namespace ErrorKind

def all : List ErrorKind :=
  [.nullReference, .invalidParameter, .notInitialized, .alreadyInitialized, .busy,
   .bufferFull, .bufferEmpty, .outOfMemory, .timeout, .notFound, .threadCreateFailed,
   .threadJoinFailed, .threadStillActive, .platformNotSupported, .notImplemented, .unknown]

def name : ErrorKind → String
  | .nullReference => "NullReference"
  | .invalidParameter => "InvalidParameter"
  | .notInitialized => "NotInitialized"
  | .alreadyInitialized => "AlreadyInitialized"
  | .busy => "Busy"
  | .bufferFull => "BufferFull"
  | .bufferEmpty => "BufferEmpty"
  | .outOfMemory => "OutOfMemory"
  | .timeout => "Timeout"
  | .notFound => "NotFound"
  | .threadCreateFailed => "ThreadCreateFailed"
  | .threadJoinFailed => "ThreadJoinFailed"
  | .threadStillActive => "ThreadStillActive"
  | .platformNotSupported => "PlatformNotSupported"
  | .notImplemented => "NotImplemented"
  | .unknown => "Unknown"

def message : ErrorKind → String
  | .nullReference => "null reference"
  | .invalidParameter => "invalid parameter"
  | .notInitialized => "not initialized"
  | .alreadyInitialized => "already initialized"
  | .busy => "resource busy"
  | .bufferFull => "buffer full"
  | .bufferEmpty => "buffer empty"
  | .outOfMemory => "out of memory"
  | .timeout => "operation timed out"
  | .notFound => "not found"
  | .threadCreateFailed => "failed to create thread"
  | .threadJoinFailed => "failed to join thread"
  | .threadStillActive => "thread still active"
  | .platformNotSupported => "platform not supported"
  | .notImplemented => "not implemented on this platform"
  | .unknown => "unknown error"

def rank (e : ErrorKind) : Nat := all.idxOf e

def ofName? (s : String) : Option ErrorKind := all.find? (fun e => e.name == s)

def sorted (es : List ErrorKind) : List ErrorKind := all.filter (fun e => es.contains e)

theorem mem_all (e : ErrorKind) : e ∈ all := by cases e <;> decide

theorem mem_sorted {e : ErrorKind} {es : List ErrorKind} : e ∈ sorted es ↔ e ∈ es := by
  simp [sorted, mem_all]

end ErrorKind

end SyncCore
