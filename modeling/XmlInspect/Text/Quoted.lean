import XmlInspect.Text.Printable

/-!
# Quoted text

Messages show a text in double quotes, with a backslash before quotes and backslashes, the usual
short forms for line feed, carriage return, tab and zero, and the code point in braces for every
other character that would not show by itself.
-/

namespace XmlInspect.Text

/-- A character inside quotes. -/
def quoteChar (c : Char) : List Char :=
  if c = '"' then ['\\', '"']
  else if c = '\\' then ['\\', '\\']
  else if c = '\n' then ['\\', 'n']
  else if c = '\r' then ['\\', 'r']
  else if c = '\t' then ['\\', 't']
  else if c.toNat = 0 then ['\\', '0']
  else if isPrintable c then [c]
  else "\\u\x7b".toList ++ Nat.toDigits 16 c.toNat ++ ['\x7d']

/-- A text in double quotes. -/
def quote (text : String) : String :=
  String.ofList ('"' :: text.toList.flatMap quoteChar ++ ['"'])

end XmlInspect.Text
