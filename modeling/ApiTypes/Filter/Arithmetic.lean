import ApiTypes.Filter.Order
import ApiTypes.Filter.Results

/-!
# Arithmetic of values

Integers are added, subtracted and multiplied exactly; a result that does not
fit 64 bits becomes a binary64 value, as does every quotient.  Addition joins
strings, arrays and objects, subtraction takes the items of an array from
another, multiplication repeats a string and merges objects, and division
splits a string.
-/

namespace ApiTypes.Filter
open Decimal (Binary64)

/-- An operation on two values. -/
inductive Operation where
  | add
  | subtract
  | multiply
  | divide
  | remainder
deriving DecidableEq, Repr

def Operation.symbol : Operation → String
  | .add => "+"
  | .subtract => "-"
  | .multiply => "*"
  | .divide => "/"
  | .remainder => "%"

def Operation.onIntegers : Operation → Int → Int → Option Value
  | .add, m, n => some (Value.ofInt (m + n))
  | .subtract, m, n => some (Value.ofInt (m - n))
  | .multiply, m, n => some (Value.ofInt (m * n))
  | .divide, m, n => some (.ofFloat (Value.nearest m / Value.nearest n))
  | .remainder, m, n => if n = 0 then none else some (.integer (m.tmod n))

/-- What an operation makes of two binary64 values. -/
def Operation.onFloats : Operation → Float → Float → Option Value
  | .add, x, y => some (.ofFloat (x + y))
  | .subtract, x, y => some (.ofFloat (x - y))
  | .multiply, x, y => some (.ofFloat (x * y))
  | .divide, x, y => some (.ofFloat (x / y))
  | .remainder, _, _ => none

/-- The parts of a text between the places of a separator; an empty separator
stands between all characters. -/
def splitText (text separator : String) : List String :=
  if separator.isEmpty then text.toList.map String.singleton else text.splitOn separator

mutual

/-- Merges the members of an object into another, objects into objects. -/
def mergeInto : List (String × Value) → List (String × Value) → List (String × Value)
  | members, [] => members
  | members, (key, value) :: rest =>
    mergeInto (Members.insert key (mergeValue (Members.find? members key) value) members) rest

def mergeValue : Option Value → Value → Value
  | some (.object old), .object new => .object (mergeInto old new)
  | _, new => new

end

/-- A string several times over; nothing for a count that is not positive. -/
def repeated (s : String) (count : Int) : Value :=
  if 0 < count then .string (String.join (List.replicate count.toNat s)) else .null

/-- What an operation makes of two values that are not both numbers. -/
def Operation.onOthers : Operation → Value → Value → Option Value
  | .add, .null, v | .add, v, .null => some v
  | .add, .string s, .string t => some (.string (s ++ t))
  | .add, .array xs, .array ys => some (.array (xs ++ ys))
  | .add, .object xs, .object ys =>
    some (.object (ys.foldl (fun members m => Members.insert m.1 m.2 members) xs))
  | .subtract, .array xs, .array ys =>
    some (.array (xs.filter fun x => !ys.any fun y => x.isEqual y))
  | .multiply, .string s, .integer n | .multiply, .integer n, .string s => some (repeated s n)
  | .multiply, .object xs, .object ys => some (.object (mergeInto xs ys))
  | .divide, .string s, .string t => some (.array ((splitText s t).map .string))
  | _, _, _ => none

def Operation.refusal (op : Operation) (x y : Value) : Exception :=
  .text ("cannot calculate " ++ x.text ++ " " ++ op.symbol ++ " " ++ y.text)

def Operation.apply (op : Operation) (x y : Value) : Except Exception Value :=
  let result :=
    match x, y with
    | .integer m, .integer n => op.onIntegers m n
    | _, _ =>
      match x.toFloat?, y.toFloat? with
      | some a, some b => op.onFloats a b
      | _, _ => op.onOthers x y
  match result with
  | some v => .ok v
  | none => .error (op.refusal x y)

/-- The number with the opposite sign. -/
def negate : Value → Except Exception Value
  | .integer n => .ok (Value.ofInt (-n))
  | v =>
    match v.toFloat? with
    | some x => .ok (.ofFloat (-x))
    | none => .error (.kind v "number")

end ApiTypes.Filter
