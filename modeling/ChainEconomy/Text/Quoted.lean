import ChainEconomy.Text.Printable

/-! # Quoted text

Text and single characters between quotation marks, as messages show them: the enclosing mark and
the backslash are escaped, tab, line feed, carriage return and null have a letter, and every other
character that is not printable is written as `\u{…}` with its code point in hexadecimal. -/

namespace ChainEconomy.Text

/-- A code point as `\u{…}`. -/
def escapedCodePoint (c : Char) : List Char :=
  ['\\', 'u', '\x7b'] ++ Nat.toDigits 16 c.toNat ++ ['\x7d']

/-- One character between quotation marks of the kind `mark`. -/
def quotedBody (mark : Char) (c : Char) : List Char :=
  if c = mark then ['\\', c]
  else if c = '\\' then ['\\', '\\']
  else if c = '\t' then ['\\', 't']
  else if c = '\r' then ['\\', 'r']
  else if c = '\n' then ['\\', 'n']
  else if c = '\x00' then ['\\', '0']
  else if isPrintable c then [c]
  else escapedCodePoint c

/-- A text in double quotes. -/
def quoted (s : String) : String :=
  String.ofList ('"' :: s.toList.flatMap (quotedBody '"') ++ ['"'])

/-- A character in single quotes. -/
def quotedChar (c : Char) : String :=
  String.ofList ('\'' :: quotedBody '\'' c ++ ['\''])

example : quoted "a\"b\\\n" = "\"a\\\"b\\\\\\n\"" := by decide +kernel
example : quoted "it's é" = "\"it's é\"" := by decide +kernel
example : quotedChar '\'' = "'\\''" := by decide +kernel

end ChainEconomy.Text
