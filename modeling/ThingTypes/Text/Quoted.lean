import ThingTypes.Unicode.Printable

/-
  Texts quoted in messages. Between double quotes, the quote, the backslash and the common control
  characters are escaped by a letter, and characters that would not show by their number.
-/

namespace ThingTypes.Text

/-- The number of a character in lower-case hexadecimal, as `\u` and braces. -/
def numberEscape (c : Char) : List Char :=
  ['\\', 'u', '\x7b'] ++ Nat.toDigits 16 c.toNat ++ ['\x7d']

def quotedChar (c : Char) : List Char :=
  if c = '"' then ['\\', '"']
  else if c = '\\' then ['\\', '\\']
  else if c = '\n' then ['\\', 'n']
  else if c = '\r' then ['\\', 'r']
  else if c = '\t' then ['\\', 't']
  else if c = '\x00' then ['\\', '0']
  else if Unicode.isPrintable c then [c]
  else numberEscape c

def quoted (s : String) : String :=
  String.ofList ('"' :: (s.toList.flatMap quotedChar ++ ['"']))

end ThingTypes.Text
