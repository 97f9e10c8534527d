import AppendLog.Text.CharClass
import AppendLog.Text.Hex

/-! Text between quotation marks, for messages.

Quotation marks and backslashes are escaped, the common controls have letters of
their own, and a character that does not stand on its own in print is given by
its code point.
-/

set_option autoImplicit false

namespace AppendLog.Text

def escape (c : Char) : String :=
  if c = '"' then "\\\""
  else if c = '\\' then "\\\\"
  else if c = '\n' then "\\n"
  else if c = '\r' then "\\r"
  else if c = '\t' then "\\t"
  else if c.toNat = 0 then "\\0"
  else if isPrintable c then c.toString
  else "\\u\x7b" ++ Hex.ofNat c.toNat ++ "\x7d"

def quoted (text : String) : String :=
  "\"" ++ String.join (text.toList.map escape) ++ "\""

end AppendLog.Text
