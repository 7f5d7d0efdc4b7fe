import HopTrace.Text.Digits
import HopTrace.Text.Printable

/-!
# Quoted diagnostic texts

Strings in diagnostics stand between double quotes. A quote, a backslash and
the usual control characters are escaped by a backslash; anything else that
does not show is spelled as its code point in base sixteen between braces.
-/

namespace HopTrace.Text

def quoteChar (c : Char) : List Char :=
  if c = '\x00' then ['\\', '0']
  else if c = '\t' then ['\\', 't']
  else if c = '\r' then ['\\', 'r']
  else if c = '\n' then ['\\', 'n']
  else if c = '\\' then ['\\', '\\']
  else if c = '\x22' then ['\\', '\x22']
  else if isPrintable c then [c]
  else ['\\', 'u', '\x7b'] ++ digits 16 c.toNat ++ ['\x7d']

def quoted (s : String) : String :=
  String.ofList ('\x22' :: s.toList.flatMap quoteChar ++ ['\x22'])

/-- Quoted strings between brackets, separated by a comma and a space. -/
def quotedList (names : List String) : String :=
  "[" ++ String.intercalate ", " (names.map quoted) ++ "]"

end HopTrace.Text
