/-!
# Log records

Operations report what they do as records of three levels. A record is
written as its level and its message.
-/

set_option autoImplicit false

namespace SyncCore.Log

inductive Level where
  | trace
  | debug
  | warn
  deriving DecidableEq, Repr

def Level.name : Level → String
  | .trace => "TRACE"
  | .debug => "DEBUG"
  | .warn => "WARN"

structure Record where
  level : Level
  message : String
  deriving DecidableEq, Repr

def Record.text (r : Record) : String := r.level.name ++ " " ++ r.message

def trace (message : String) : Record := ⟨.trace, message⟩
def debug (message : String) : Record := ⟨.debug, message⟩
def warn (message : String) : Record := ⟨.warn, message⟩

end SyncCore.Log
