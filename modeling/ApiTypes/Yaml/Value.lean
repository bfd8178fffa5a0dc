import ApiTypes.Json.Basic
import ApiTypes.Yaml.Lexer
import ApiTypes.Yaml.Node

/-!
# YAML as JSON

A scalar without quotes is resolved by the core schema: null, booleans,
integers in four bases, decimals, infinities and NaN; anything else is a
string.  Integers that 64 bits cannot hold are refused.  Keys are scalars, taken
as they are written.
-/

namespace ApiTypes.Yaml
open Decimal (Binary64)

def nestingLimit : Nat := 128

/-! ### Scalars -/

def isNullText (text : String) : Bool :=
  text == "null" || text == "Null" || text == "NULL" || text == "~"

def bool? (text : String) : Option Bool :=
  if text == "true" || text == "True" || text == "TRUE" then some true
  else if text == "false" || text == "False" || text == "FALSE" then some false
  else none

def digit? (base : Nat) (c : Char) : Option Nat :=
  (Text.hexValue? c).bind fun d => if d < base then some d else none

/-- The number that digits stand for; there must be one at least. -/
def natural? (base : Nat) (digits : List Char) : Option Nat :=
  if digits.isEmpty then none
  else digits.foldl (fun n c => n.bind fun n => (digit? base c).map (n * base + ·)) (some 0)

/-- A sign at the front: whether there is one, whether it is a minus, and the
rest. -/
def splitSign : List Char → Bool × Bool × List Char
  | '+' :: rest => (true, false, rest)
  | '-' :: rest => (true, true, rest)
  | chars => (false, false, chars)

/-- Whether the text is digits that begin with a superfluous zero. -/
def isPadded (chars : List Char) : Bool :=
  match (splitSign chars).2.2 with
  | '0' :: d :: rest => (d :: rest).all Char.isDigit
  | _ => false

def integer? (chars : List Char) : Option Int :=
  let (_, negative, digits) := splitSign chars
  let signed (n : Nat) : Int := if negative then -n else n
  let decimal := if isPadded chars then none else (natural? 10 digits).map signed
  match digits with
  | '0' :: 'x' :: rest => ((natural? 16 rest).map signed) <|> decimal
  | '0' :: 'o' :: rest => ((natural? 8 rest).map signed) <|> decimal
  | '0' :: 'b' :: rest => ((natural? 2 rest).map signed) <|> decimal
  | _ => decimal

/-- The significand and exponent of digits with an optional fraction and an
optional exponent; there must be a digit before or after the point. -/
def decimal? (chars : List Char) : Option (Nat × Int) :=
  let whole := chars.takeWhile Char.isDigit
  let rest := chars.dropWhile Char.isDigit
  let (fraction, rest) := match rest with
    | '.' :: rest => (rest.takeWhile Char.isDigit, rest.dropWhile Char.isDigit)
    | rest => ([], rest)
  if whole.isEmpty && fraction.isEmpty then none
  else
    let significand := (natural? 10 (whole ++ fraction)).getD 0
    match rest with
    | [] => some (significand, -fraction.length)
    | e :: rest =>
      if e == 'e' || e == 'E' then
        let (_, negative, digits) := splitSign rest
        (natural? 10 digits).map fun n =>
          (significand, (if negative then -(n : Int) else n) - fraction.length)
      else none

def nearest (significand : Nat) (exponent : Int) : Float :=
  -- beyond these bounds the value is zero or infinite
  let bounded := max (-400 - (Nat.toDigits 10 significand).length : Int) (min 400 exponent)
  OfScientific.ofScientific significand (decide (bounded < 0)) bounded.natAbs

/-- The binary64 value of a text; infinities and NaN have texts of their own. -/
def float? (chars : List Char) : Option Float :=
  let (_, negative, rest) := splitSign chars
  let signed (x : Float) : Float := if negative then -x else x
  let name := String.ofList rest
  if name == ".inf" || name == ".Inf" || name == ".INF" then some (signed (1.0 / 0.0))
  else
    let name := String.ofList chars
    if name == ".nan" || name == ".NaN" || name == ".NAN" then some (0.0 / 0.0)
    else
      match decimal? rest with
      | some (significand, exponent) =>
        let x := signed (nearest significand exponent)
        if x.isFinite then some x else none
      | none => none

/-- A binary64 value as JSON, which has no infinities and no NaN. -/
def jsonOfFloat (x : Float) : Json :=
  if x.isFinite then .number (.double (Binary64.ofFloat x)) else .null

/-- An integer as JSON; refused if 64 bits cannot hold it. -/
def jsonOfInteger (n : Int) : Option Json :=
  if -Nat.pow 2 63 ≤ n ∧ n < Nat.pow 2 64 then some (.number (.integer n)) else none

/-- Whether an integer counts as one: 128 bits have to hold it. -/
def isInteger (n : Int) : Bool := -Nat.pow 2 127 ≤ n && n < Nat.pow 2 128

/-- The value of a scalar without quotes and tag. -/
def resolvePlain (text : String) : Option Json :=
  let chars := text.toList
  if text.isEmpty || isNullText text then some .null
  else
    match bool? text with
    | some b => some (.bool b)
    | none =>
      match (integer? chars).filter isInteger with
      | some n => jsonOfInteger n
      | none =>
        if isPadded chars then some (.string text)
        else
          match float? chars with
          | some x => some (jsonOfFloat x)
          | none => some (.string text)

def resolve (tag : Option String) (plain : Bool) (text : String) : Option Json :=
  match tag with
  | none => if plain then resolvePlain text else some (.string text)
  | some "tag:yaml.org,2002:bool" => (bool? text).map .bool
  | some "tag:yaml.org,2002:int" =>
    ((integer? text.toList).filter isInteger).bind jsonOfInteger
  | some "tag:yaml.org,2002:float" => (float? text.toList).map jsonOfFloat
  | some "tag:yaml.org,2002:null" => if isNullText text then some .null else none
  | some tag => if tag.startsWith "!" then none else some (.string text)

/-! ### Trees -/

/-- Whether a tag is one of an application's own, which JSON has no place for. -/
def isPrivate : Option String → Bool
  | some tag => tag.startsWith "!"
  | none => false

def keyText : Node → Option String
  | .scalar _ _ text => some text
  | _ => none

/-- The value of a node in which `depth` collections may be nested. -/
def Node.toJson? : Nat → Node → Option Json
  | _, .scalar tag plain text => resolve tag plain text
  | 0, _ => none
  | depth + 1, .sequence tag items =>
    if isPrivate tag then none else (items.mapM (toJson? depth)).map .array
  | depth + 1, .mapping tag pairs =>
    if isPrivate tag then none
    else
      (pairs.mapM fun (pair : Node × Node) => do
        let key ← keyText pair.1
        let value ← toJson? depth pair.2
        pure (key, value)).map fun members => .object (Members.ofList members)

/-- The value of a text with one document at most. -/
def parse (text : String) : Option Json := do
  let tokens ← Token.ofText text
  match ← Node.ofTokens? tokens with
  | none => pure .null
  | some node => node.toJson? nestingLimit

end ApiTypes.Yaml
