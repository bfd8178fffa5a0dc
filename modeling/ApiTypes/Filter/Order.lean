import ApiTypes.Filter.Value

/-!
# The order of values

Values of different kinds are ordered by their kinds.  Numbers are ordered by
their binary64 values unless both are integers, strings by code points, arrays
item by item.  Objects are ordered by their sorted keys first and by the values
under these keys then.  A number that is none comes before every number, itself
included.
-/

namespace ApiTypes.Filter

namespace Value

/-- Inserts a member before the first one with a greater key. -/
def insertSorted (m : String × Value) : List (String × Value) → List (String × Value)
  | [] => [m]
  | n :: rest => if n.1 < m.1 then n :: insertSorted m rest else m :: n :: rest

mutual

/-- The value with the members of all objects in the order of their keys. -/
def sorted : Value → Value
  | .array items => .array (sortedItems items)
  | .object members => .object (sortedMembers members)
  | v => v

def sortedItems : List Value → List Value
  | [] => []
  | item :: rest => sorted item :: sortedItems rest

def sortedMembers : List (String × Value) → List (String × Value)
  | [] => []
  | (key, value) :: rest => insertSorted (key, sorted value) (sortedMembers rest)

end

/-- A number that orders binary64 values as their bits do, the signed zero first. -/
def orderKey (x : Float) : Int :=
  let bits := x.toBits.toNat
  if bits < Nat.pow 2 63 then bits else -1 - (bits - Nat.pow 2 63 : Nat)

/-- The order of binary64 values. -/
def compareFloat (x y : Float) : Ordering :=
  if x == 0.0 && y == 0.0 then .eq
  else if x.isNaN then .lt
  else if y.isNaN then .gt
  else compare (orderKey x) (orderKey y)

mutual

def compareSorted : Value → Value → Ordering
  | .bool x, .bool y => compare x y
  | .integer m, .integer n => compare m n
  | .string s, .string t => compare s t
  | .array xs, .array ys => compareItems xs ys
  | .object xs, .object ys =>
    (compareKeys xs ys).then (compareMembers xs ys)
  | x, y =>
    match x.toFloat?, y.toFloat? with
    | some a, some b => compareFloat a b
    | _, _ => compare x.rank y.rank

def compareItems : List Value → List Value → Ordering
  | [], [] => .eq
  | [], _ :: _ => .lt
  | _ :: _, [] => .gt
  | x :: xs, y :: ys => (compareSorted x y).then (compareItems xs ys)

def compareKeys : List (String × Value) → List (String × Value) → Ordering
  | [], [] => .eq
  | [], _ :: _ => .lt
  | _ :: _, [] => .gt
  | (k, _) :: xs, (l, _) :: ys => (compare k l).then (compareKeys xs ys)

/-- The order of the values under equal keys. -/
def compareMembers : List (String × Value) → List (String × Value) → Ordering
  | (_, x) :: xs, (_, y) :: ys => (compareSorted x y).then (compareMembers xs ys)
  | _, _ => .eq

end

def order (x y : Value) : Ordering := compareSorted x.sorted y.sorted

def isEqual (x y : Value) : Bool := x.order y == .eq

end Value

/-- A comparison of two values. -/
inductive Comparison where
  | equal
  | unequal
  | less
  | lessOrEqual
  | greater
  | greaterOrEqual
deriving DecidableEq, Repr

def Comparison.holds : Comparison → Value → Value → Bool
  | .equal, x, y => x.isEqual y
  | .unequal, x, y => !x.isEqual y
  | .less, x, y => x.order y == .lt
  | .lessOrEqual, x, y => x.order y != .gt
  | .greater, x, y => x.order y == .gt
  | .greaterOrEqual, x, y => x.order y != .lt

end ApiTypes.Filter
