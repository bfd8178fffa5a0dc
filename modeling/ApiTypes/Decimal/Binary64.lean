import ApiTypes.Decimal.Shortest

/-!
# Binary64 numbers

A binary64 number is kept as its bit pattern, so that it has a decidable
equality.  `text` writes it with the fewest digits that read back; a `Layout`
says where positional notation ends and how an exponent is written.
-/

namespace ApiTypes.Decimal

/-- A binary64 number, given by its bits. -/
structure Binary64 where
  bits : UInt64
deriving DecidableEq, Repr

namespace Binary64

def ofFloat (x : Float) : Binary64 := ⟨x.toBits⟩

def toFloat (x : Binary64) : Float := Float.ofBits x.bits

def isNegative (x : Binary64) : Bool := x.bits.toNat / Nat.pow 2 63 == 1

def exponentBits (x : Binary64) : Nat := x.bits.toNat / Nat.pow 2 52 % Nat.pow 2 11

/-- The fifty-two bits after the binary point. -/
def fractionBits (x : Binary64) : Nat := x.bits.toNat % Nat.pow 2 52

def isFinite (x : Binary64) : Bool := x.exponentBits != 2047

/-- The shortest decimal of a finite number's absolute value. -/
def shortest (x : Binary64) : Scaled :=
  if x.exponentBits == 0 then
    if x.fractionBits == 0 then ⟨0, 0⟩ else Decimal.shortest x.fractionBits (-1074) false
  else
    Decimal.shortest (Nat.pow 2 52 + x.fractionBits) ((x.exponentBits : Int) - 1075)
      (x.fractionBits == 0 && x.exponentBits != 1)

end Binary64

/-- How a finite number is laid out. -/
structure Layout where
  /-- The least decimal exponent written positionally. -/
  least : Int
  /-- The greatest decimal exponent written positionally. -/
  greatest : Int
  /-- Whether a positive exponent carries a sign. -/
  signed : Bool

def zeros (n : Nat) : List Char := List.replicate n '0'

/-- The digits without an exponent; the point stands after `point` digits. -/
def positional (digits : List Char) (point : Int) : List Char :=
  if point ≤ 0 then ['0', '.'] ++ zeros (-point).toNat ++ digits
  else if digits.length ≤ point.toNat then
    digits ++ zeros (point.toNat - digits.length) ++ ['.', '0']
  else digits.take point.toNat ++ ['.'] ++ digits.drop point.toNat

/-- The digits with a point after the first one, and an exponent. -/
def scientific (signed : Bool) (digits : List Char) (exponent : Int) : List Char :=
  let fraction := match digits with
    | d :: e :: rest => d :: '.' :: e :: rest
    | short => short
  let sign := if exponent < 0 then ['-'] else if signed then ['+'] else []
  fraction ++ ['e'] ++ sign ++ Nat.toDigits 10 exponent.natAbs

def Layout.text (layout : Layout) (x : Binary64) : String :=
  let s := x.shortest
  let digits := Nat.toDigits 10 s.digits
  let exponent := (digits.length : Int) - 1 + s.exponent
  let body :=
    if layout.least ≤ exponent ∧ exponent ≤ layout.greatest then
      positional digits (exponent + 1)
    else scientific layout.signed digits exponent
  String.ofList (if x.isNegative then '-' :: body else body)

/-- JSON writes `1e-5` to `1e15` positionally, always with a point, and other
numbers with a signed exponent. -/
def Layout.json : Layout := ⟨-5, 15, true⟩

/-- The filter language keeps `1e-4` positional but not `1e-5`, and leaves the
sign of a positive exponent out. -/
def Layout.filter : Layout := ⟨-4, 15, false⟩

end ApiTypes.Decimal
