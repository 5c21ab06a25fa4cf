import SyncCore.Text.Printable
import SyncCore.Text.Record

/-!
# Quoted text

A text is quoted by putting double quotes around it and escaping the
characters that could not be read off the page. Five control characters, the
quote and the backslash have short escapes; every other character that is
not printable or that would attach itself to its neighbour is written by its
code point in hexadecimal.
-/

set_option autoImplicit false

namespace SyncCore.Text

def escapeChar (c : Char) : String :=
  if c = '\x00' then "\\0"
  else if c = '\t' then "\\t"
  else if c = '\r' then "\\r"
  else if c = '\n' then "\\n"
  else if c = '\\' then "\\\\"
  else if c = '"' then "\\\""
  else if isExtending c || !isPrintable c then "\\u\x7b" ++ hex c.toNat ++ "\x7d"
  else c.toString

def quoted (s : String) : String :=
  "\"" ++ String.join (s.toList.map escapeChar) ++ "\""

end SyncCore.Text
