import ApiTypes.Unicode.Visible
import ApiTypes.Text.Quoted

/-!
# Text in diagnostics

`inspect` shows a string between double quotes so that every character can be
seen: a character that is not visible by itself is written as its code point in
braces.
-/

namespace ApiTypes.Text

def inspectChar (c : Char) : List Char :=
  if c = '"' then ['\\', '"']
  else if c = '\\' then ['\\', '\\']
  else if c = '\t' then ['\\', 't']
  else if c = '\n' then ['\\', 'n']
  else if c = '\r' then ['\\', 'r']
  else if c = '\x00' then ['\\', '0']
  else if Unicode.isVisible c then [c]
  else ['\\', 'u', '\x7b'] ++ Nat.toDigits 16 c.toNat ++ ['\x7d']

def inspect (s : String) : String :=
  String.ofList ('"' :: s.toList.flatMap inspectChar ++ ['"'])

end ApiTypes.Text
