import ApiTypes.Json.Printer

/-!
# Values of the filter language

The values are those of JSON with three forms of numbers: integers of 64 bits,
binary64 values, and decimals, which keep the text they were written with until
they take part in arithmetic.
-/

namespace ApiTypes.Filter
open Decimal (Binary64 Layout)

inductive Value where
  | null
  | bool (b : Bool)
  | integer (n : Int)
  | double (x : Binary64)
  /-- A number that is no integer of 64 bits, as it was written. -/
  | decimal (digits : String)
  | string (s : String)
  | array (items : List Value)
  | object (members : List (String × Value))
deriving Repr, Inhabited

/-- Whether an integer fits 64 bits with a sign. -/
def fitsWord (n : Int) : Bool := -Nat.pow 2 63 ≤ n && n < Nat.pow 2 63

namespace Value

/-! ### JSON values as filter values -/

def ofNumber : Number → Value
  | .integer n => if fitsWord n then .integer n else .decimal (toString n)
  | .double x => .decimal (Number.double x).text

mutual

def ofJson : Json → Value
  | .null => .null
  | .bool b => .bool b
  | .number n => ofNumber n
  | .string s => .string s
  | .array items => .array (ofItems items)
  | .object members => .object (ofMembers members)

def ofItems : List Json → List Value
  | [] => []
  | item :: rest => ofJson item :: ofItems rest

def ofMembers : List (String × Json) → List (String × Value)
  | [] => []
  | (key, value) :: rest => (key, ofJson value) :: ofMembers rest

end

/-! ### Text -/

/-- The text of a binary64 value; one that is not finite is written `null`. -/
def doubleText (x : Binary64) : String := if x.isFinite then Layout.filter.text x else "null"

mutual

def text : Value → String
  | .null => "null"
  | .bool true => "true"
  | .bool false => "false"
  | .integer n => toString n
  | .double x => doubleText x
  | .decimal digits => digits
  | .string s => Text.quote s
  | .array items => "[" ++ Text.joinWith "," (itemTexts items) ++ "]"
  | .object members => "\x7b" ++ Text.joinWith "," (memberTexts members) ++ "\x7d"

def itemTexts : List Value → List String
  | [] => []
  | item :: rest => text item :: itemTexts rest

/-- The texts of the members, key and value separated by a colon. -/
def memberTexts : List (String × Value) → List String
  | [] => []
  | (key, value) :: rest => (Text.quote key ++ ":" ++ text value) :: memberTexts rest

end

/-- The text of a value inside other text: a string stands for itself. -/
def plainText : Value → String
  | .string s => s
  | v => v.text

/-! ### Kinds of values -/

/-- Everything but `null` and `false` counts as true. -/
def isTrue : Value → Bool
  | .null | .bool false => false
  | _ => true

/-- The place of a kind in the order of kinds. -/
def rank : Value → Nat
  | .null => 0
  | .bool _ => 1
  | .integer _ | .double _ | .decimal _ => 2
  | .string _ => 3
  | .array _ => 4
  | .object _ => 5

def kindName : Value → String
  | .null => "null"
  | .bool _ => "boolean"
  | .integer _ | .double _ | .decimal _ => "number"
  | .string _ => "string"
  | .array _ => "array"
  | .object _ => "object"

/-! ### Numbers -/

/-- The binary64 value nearest to an integer. -/
def nearest (n : Int) : Float := Float.ofInt n

/-- `digits · 10^exponent` to the nearest binary64 value. -/
def scaled (digits : Nat) (exponent : Int) : Float :=
  let size : Int := (Nat.toDigits 10 digits).length + exponent
  if digits = 0 ∨ size < -400 then 0.0
  else if 400 < size then 1.0 / 0.0
  else if 0 ≤ exponent then OfScientific.ofScientific digits false exponent.toNat
  else OfScientific.ofScientific digits true exponent.natAbs

/-- Reads the exponent of a decimal, from its letter on. -/
def readExponent : List Char → Int
  | _ :: '-' :: digits => -(String.ofList digits).toNat?.getD 0
  | _ :: '+' :: digits => (String.ofList digits).toNat?.getD 0
  | _ :: digits => (String.ofList digits).toNat?.getD 0
  | [] => 0

/-- The binary64 value of a decimal's text. -/
def readDecimal (digits : String) : Float :=
  let chars := digits.toList
  let (negative, chars) := match chars with
    | '-' :: rest => (true, rest)
    | rest => (false, rest)
  let whole := chars.takeWhile Char.isDigit
  let chars := chars.dropWhile Char.isDigit
  let (fraction, chars) := match chars with
    | '.' :: rest => (rest.takeWhile Char.isDigit, rest.dropWhile Char.isDigit)
    | rest => ([], rest)
  let significand := (String.ofList (whole ++ fraction)).toNat?.getD 0
  let x := scaled significand (readExponent chars - fraction.length)
  if negative then -x else x

def ofFloat (x : Float) : Value := .double (Binary64.ofFloat x)

/-- An integer if it fits 64 bits, the nearest binary64 value otherwise. -/
def ofInt (n : Int) : Value := if fitsWord n then .integer n else ofFloat (nearest n)

/-- The binary64 value of a number. -/
def toFloat? : Value → Option Float
  | .integer n => some (nearest n)
  | .double x => some x.toFloat
  | .decimal digits => some (readDecimal digits)
  | _ => none

end Value

end ApiTypes.Filter
