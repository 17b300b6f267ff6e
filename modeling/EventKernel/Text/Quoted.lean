import EventKernel.Text.GraphemeExtend
import EventKernel.Text.Hexadecimal
import EventKernel.Text.Printable

set_option autoImplicit false

/-! Texts in quotation marks, as error messages show them: a character that would not be
seen by itself is written as its code point. -/

namespace EventKernel.Text

def escape (char : Char) : String :=
  if char = '\x00' then "\\0"
  else if char = '\t' then "\\t"
  else if char = '\r' then "\\r"
  else if char = '\n' then "\\n"
  else if char = '"' then "\\\""
  else if char = '\\' then "\\\\"
  else if isGraphemeExtend char || !isPrintable char then
    "\\u\x7b" ++ showHex char.toNat ++ "\x7d"
  else char.toString

def quoted (text : List Char) : String :=
  "\"" ++ String.join (text.map escape) ++ "\""

end EventKernel.Text
