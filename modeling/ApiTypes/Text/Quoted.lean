/-!
# Quoted text

Two quoting rules.  `quote` writes a JSON string: a quote and a backslash are
escaped by a backslash, a control character below U+0020 by its short escape
or by four lower-case hexadecimal digits, and every other character stands for
itself.  `literal` writes a single-quoted literal, in which only the backslash
and the single quote are escaped.
-/

namespace ApiTypes.Text

/-- The lower-case hexadecimal digit of a number below sixteen. -/
def hexDigit (n : Nat) : Char :=
  if n < 10 then Char.ofNat (48 + n) else Char.ofNat (87 + n)

/-- What a character is written as between double quotes. -/
def escape (c : Char) : List Char :=
  if c = '"' then ['\\', '"']
  else if c = '\\' then ['\\', '\\']
  else if c = '\x08' then ['\\', 'b']
  else if c = '\t' then ['\\', 't']
  else if c = '\n' then ['\\', 'n']
  else if c = '\x0c' then ['\\', 'f']
  else if c = '\r' then ['\\', 'r']
  else if c.toNat < 32 then
    ['\\', 'u', '0', '0', hexDigit (c.toNat / 16), hexDigit (c.toNat % 16)]
  else [c]

/-- A JSON string holding `s`. -/
def quote (s : String) : String :=
  String.ofList ('"' :: s.toList.flatMap escape ++ ['"'])

/-- What a character is written as between single quotes. -/
def escapeLiteral (c : Char) : List Char :=
  if c = '\\' then ['\\', '\\'] else if c = '\'' then ['\\', '\''] else [c]

/-- A single-quoted literal holding `s`. -/
def literal (s : String) : String :=
  String.ofList ('\'' :: s.toList.flatMap escapeLiteral ++ ['\''])

/-- The texts in order, with `separator` between neighbours. -/
def joinWith (separator : String) : List String → String
  | [] => ""
  | [s] => s
  | s :: t :: rest => s ++ separator ++ joinWith separator (t :: rest)

/-- The literals of `values`, separated by bars. -/
def literalUnion (values : List String) : String := joinWith "|" (values.map literal)

end ApiTypes.Text
