import SyncCore.Json.Value
import SyncCore.Text.Record

/-!
# Writing JSON

A value is written on one line without blanks. In strings the quote, the
backslash and the control characters are escaped and all else stands as it
is. A number is written with all its digits, none of them rounded.
-/

set_option autoImplicit false

namespace SyncCore.Json

def escape (c : Char) : String :=
  if c = '"' then "\\\""
  else if c = '\\' then "\\\\"
  else if c = '\n' then "\\n"
  else if c = '\r' then "\\r"
  else if c = '\t' then "\\t"
  else if c.toNat < 32 then
    "\\u00" ++ (if c.toNat < 16 then "0" else "") ++ Text.hex c.toNat
  else c.toString

def writeText (s : String) : String := "\"" ++ String.join (s.toList.map escape) ++ "\""

def writeKey : Key → String
  | some s => writeText s
  | none => "\"\\ud800\""

mutual

def write : Value → String
  | .null => "null"
  | .bool b => Text.flag b
  | .int n => toString n
  | .decimal negative d => (if negative then "-" else "") ++ d.toText
  | .text s => writeText s
  | .illFormed => "\"\\ud800\""
  | .array xs => "[" ++ ",".intercalate (writeAll xs) ++ "]"
  | .object fs => "\x7b" ++ ",".intercalate (writeFields fs) ++ "\x7d"

def writeAll : List Value → List String
  | [] => []
  | x :: xs => write x :: writeAll xs

def writeFields : List (Key × Value) → List String
  | [] => []
  | (k, x) :: fs => (writeKey k ++ ":" ++ write x) :: writeFields fs

end

end SyncCore.Json
