import ApiTypes.Filter.Value
import ApiTypes.Unicode.Word

/-!
# Strings in the filter language

Functions on strings: cutting ends off, places of a part, and the encodings of
the formats.
-/

namespace ApiTypes.Filter.Strings

def trimStart (s : String) : String := String.ofList (s.toList.dropWhile Unicode.isBlank)

def trimEnd (s : String) : String :=
  String.ofList (s.toList.reverse.dropWhile Unicode.isBlank).reverse

def beginsWith (s t : String) : Bool := s.toList.isPrefixOf t.toList

def endsWith (s t : String) : Bool := s.toList.isSuffixOf t.toList

/-- The string without `s` at its front. -/
def dropStart (s t : String) : String :=
  if beginsWith s t then String.ofList (t.toList.drop s.length) else t

def dropEnd (s t : String) : String :=
  if endsWith s t then String.ofList (t.toList.take (t.length - s.length)) else t

/-- The places at which `part` stands in `whole`, the first one being `i`. -/
def places {α : Type} (same : α → α → Bool) (part : List α) :
    (whole : List α) → (i : Nat) → List Nat
  | [], _ => []
  | a :: rest, i =>
    let here := part.length ≤ rest.length + 1 &&
      ((part.zip (a :: rest)).all fun (x, y) => same x y)
    if here then i :: places same part rest (i + 1) else places same part rest (i + 1)

/-- Whether `part` stands somewhere in `whole`. -/
def contains (part whole : String) : Bool :=
  part.isEmpty || !(places (· == ·) part.toList whole.toList 0).isEmpty

def ofCodePoints? : List Value → Option (List Char)
  | [] => some []
  | .integer n :: rest =>
    if h : n.toNat.isValidChar ∧ 0 ≤ n then
      (ofCodePoints? rest).map (Char.ofNatAux n.toNat h.1 :: ·)
    else none
  | _ => none

/-! ### Encodings -/

/-- Each character as `code` says, or as itself. -/
def replaceChars (code : Char → Option String) (s : String) : String :=
  String.join (s.toList.map fun c => (code c).getD (String.singleton c))

/-- Text between tags. -/
def html (s : String) : String :=
  replaceChars (fun
    | '<' => some "&lt;"
    | '>' => some "&gt;"
    | '&' => some "&amp;"
    | '\'' => some "&#39;"
    | '"' => some "&quot;"
    | _ => none) s

def commaField (s : String) : String :=
  "\"" ++ replaceChars (fun c => if c = '"' then some "\"\"" else none) s ++ "\""

def tabField (s : String) : String :=
  replaceChars (fun
    | '\\' => some "\\\\"
    | '\n' => some "\\n"
    | '\r' => some "\\r"
    | '\t' => some "\\t"
    | _ => none) s

def commandWord (s : String) : String :=
  "'" ++ replaceChars (fun c => if c = '\'' then some "'\\''" else none) s ++ "'"

def hexDigit (n : Nat) : Char := if n < 10 then Char.ofNat (48 + n) else Char.ofNat (55 + n)

/-- A part of an address: bytes that are not reserved or unreserved letters are
written as two digits behind a percent sign. -/
def percent (s : String) : String :=
  String.ofList (s.toUTF8.toList.flatMap fun b =>
    let c := Char.ofNat b.toNat
    if c.isAlphanum || c == '-' || c == '_' || c == '.' || c == '~' then [c]
    else ['%', hexDigit (b.toNat / 16), hexDigit (b.toNat % 16)])

def digit64 (n : Nat) : Char :=
  if n < 26 then Char.ofNat (65 + n)
  else if n < 52 then Char.ofNat (71 + n)
  else if n < 62 then Char.ofNat (n - 4)
  else if n = 62 then '+'
  else '/'

/-- Bytes in base 64, three at a time. -/
def encode64 : List Nat → List Char
  | [] => []
  | [a] => [digit64 (a / 4), digit64 (a % 4 * 16), '=', '=']
  | [a, b] => [digit64 (a / 4), digit64 (a % 4 * 16 + b / 16), digit64 (b % 16 * 4), '=']
  | a :: b :: c :: rest =>
    digit64 (a / 4) :: digit64 (a % 4 * 16 + b / 16) :: digit64 (b % 16 * 4 + c / 64) ::
      digit64 (c % 64) :: encode64 rest

/-- The value of a digit of base 64. -/
def value64? (c : Char) : Option Nat :=
  if c.isUpper then some (c.toNat - 65)
  else if c.isLower then some (c.toNat - 71)
  else if c.isDigit then some (c.toNat + 4)
  else if c = '+' then some 62
  else if c = '/' then some 63
  else none

/-- The bytes that base 64 stands for. -/
def decode64? : List Char → Option (List Nat)
  | [] => some []
  | [a, b, '=', '='] => do
    let (x, y) := (← value64? a, ← value64? b)
    if y % 16 = 0 then some [x * 4 + y / 16] else none
  | [a, b, c, '='] => do
    let (x, y, z) := (← value64? a, ← value64? b, ← value64? c)
    if z % 4 = 0 then some [x * 4 + y / 16, y % 16 * 16 + z / 4] else none
  | a :: b :: c :: d :: rest => do
    let (x, y, z, w) := (← value64? a, ← value64? b, ← value64? c, ← value64? d)
    let bytes ← decode64? rest
    some ((x * 4 + y / 16) :: (y % 16 * 16 + z / 4) :: (z % 4 * 64 + w) :: bytes)
  | _ => none

end ApiTypes.Filter.Strings
