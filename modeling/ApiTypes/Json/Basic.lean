import ApiTypes.Decimal.Binary64

/-!
# JSON values

A JSON tree with ordered object members.  An integer is kept exactly, any other
number as binary64.  Equality of trees is decidable; it compares members in
their order.
-/

namespace ApiTypes
open Decimal (Binary64)

/-- A number: an integer of 64 bits, signed or unsigned, or a binary64 value. -/
inductive Number where
  | integer (n : Int)
  | double (x : Binary64)
deriving DecidableEq, Repr

inductive Json where
  | null
  | bool (b : Bool)
  | number (n : Number)
  | string (s : String)
  | array (items : List Json)
  | object (members : List (String × Json))
deriving Repr, Inhabited

namespace Json

mutual

/-- Equality of trees, member by member. -/
def decEq : (a b : Json) → Decidable (a = b)
  | .null, .null => isTrue rfl
  | .bool x, .bool y => decidable_of_iff (x = y) (by simp)
  | .number x, .number y => decidable_of_iff (x = y) (by simp)
  | .string x, .string y => decidable_of_iff (x = y) (by simp)
  | .array x, .array y =>
    have := decEqItems x y
    decidable_of_iff (x = y) (by simp)
  | .object x, .object y =>
    have := decEqMembers x y
    decidable_of_iff (x = y) (by simp)
  | .null, .bool _ | .null, .number _ | .null, .string _ | .null, .array _
  | .null, .object _ => isFalse nofun
  | .bool _, .null | .bool _, .number _ | .bool _, .string _ | .bool _, .array _
  | .bool _, .object _ => isFalse nofun
  | .number _, .null | .number _, .bool _ | .number _, .string _ | .number _, .array _
  | .number _, .object _ => isFalse nofun
  | .string _, .null | .string _, .bool _ | .string _, .number _ | .string _, .array _
  | .string _, .object _ => isFalse nofun
  | .array _, .null | .array _, .bool _ | .array _, .number _ | .array _, .string _
  | .array _, .object _ => isFalse nofun
  | .object _, .null | .object _, .bool _ | .object _, .number _ | .object _, .string _
  | .object _, .array _ => isFalse nofun

def decEqItems : (a b : List Json) → Decidable (a = b)
  | [], [] => isTrue rfl
  | [], _ :: _ => isFalse nofun
  | _ :: _, [] => isFalse nofun
  | x :: xs, y :: ys =>
    have := decEq x y
    have := decEqItems xs ys
    decidable_of_iff (x = y ∧ xs = ys) (by simp)

def decEqMembers : (a b : List (String × Json)) → Decidable (a = b)
  | [], [] => isTrue rfl
  | [], _ :: _ => isFalse nofun
  | _ :: _, [] => isFalse nofun
  | (k, x) :: xs, (l, y) :: ys =>
    have := decEq x y
    have := decEqMembers xs ys
    decidable_of_iff ((k = l ∧ x = y) ∧ xs = ys) (by simp)

end

instance : DecidableEq Json := decEq

end Json

/-! ### Ordered members

Members are a list of pairs.  A key that is set again keeps its first position
and takes the last value. -/

namespace Members

def find? {α : Type} (members : List (String × α)) (key : String) : Option α :=
  members.lookup key

/-- Sets a key: in place where the key stands already, at the end otherwise. -/
def insert {α : Type} (key : String) (value : α) : List (String × α) → List (String × α)
  | [] => [(key, value)]
  | (k, v) :: rest => if k = key then (k, value) :: rest else (k, v) :: insert key value rest

/-- Removes a key; the others keep their order. -/
def erase {α : Type} (key : String) (members : List (String × α)) : List (String × α) :=
  members.filter (fun m => m.1 ≠ key)

/-- The members as they are after each pair in turn is set. -/
def ofList {α : Type} (pairs : List (String × α)) : List (String × α) :=
  pairs.foldl (fun members m => insert m.1 m.2 members) []

end Members

namespace Json

/-- The member of an object under `key`; nothing for other values. -/
def member? : Json → String → Option Json
  | .object members, key => Members.find? members key
  | _, _ => none

def asString? : Json → Option String
  | .string s => some s
  | _ => none

def isString (j : Json) : Bool := j.asString?.isSome

end Json

end ApiTypes
