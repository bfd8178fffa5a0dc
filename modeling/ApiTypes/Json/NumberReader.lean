import ApiTypes.Json.Basic
import ApiTypes.Json.Cursor

/-!
# Reading JSON numbers

An integer literal that fits 64 bits is read exactly.  Any other number is read
into a significand of 64 bits and a power of ten, and these are combined by one
binary64 operation: a digit that would overflow the significand is dropped
together with all after it, integer digits raising the exponent instead.
-/

namespace ApiTypes.Json
open Decimal (Binary64)

def maxSignificand : Nat := Nat.pow 2 64 - 1

/-- The largest exponent that is still counted. -/
def maxExponent : Nat := Nat.pow 2 31 - 1

def digitValue (c : Char) : Nat := c.toNat - 48

/-- Appends digits to a significand as long as it fits; the digits that remain
come with it. -/
def accumulate (limit : Nat) : Nat → List Char → Nat × List Char
  | n, [] => (n, [])
  | n, c :: rest =>
    let m := n * 10 + digitValue c
    if m ≤ limit then accumulate limit m rest else (n, c :: rest)

def takeDigits (c : Cursor) : List Char × Cursor :=
  let digits := c.rest.takeWhile Char.isDigit
  (digits, ⟨c.rest.dropWhile Char.isDigit, c.offset + digits.length⟩)

/-- `significand · 10^exponent` by one operation; very small exponents are first
raised by divisions by `1e308`.  Nothing when the result is infinite. -/
def combine : Nat → Float → Int → Option Float
  | 0, x, _ => some x
  | fuel + 1, x, exponent =>
    if exponent.natAbs ≤ 308 then
      let power := OfScientific.ofScientific 1 false exponent.natAbs
      if 0 ≤ exponent then
        let y := x * power
        if y.isInf then none else some y
      else some (x / power)
    else if x == 0.0 then some x
    else if 0 ≤ exponent then none
    else combine fuel (x / OfScientific.ofScientific 1 false 308) (exponent + 308)

def double (negative : Bool) (significand : Nat) (exponent : Int) (c : Cursor) :
    Except Fault (Number × Cursor) :=
  match combine 5 significand.toUInt64.toFloat exponent with
  | some x => .ok (.double (Binary64.ofFloat (if negative then -x else x)), c)
  | none => .error (c.fault .numberOutOfRange)

/-- Reads an exponent, from behind its letter. -/
def readExponent (negative : Bool) (significand : Nat) (exponent : Int) (c : Cursor) :
    Except Fault (Number × Cursor) :=
  let (down, c) := match c.rest with
    | '+' :: _ => (false, c.next)
    | '-' :: _ => (true, c.next)
    | _ => (false, c)
  match c.rest with
  | [] => .error (c.fault .endInValue)
  | d :: _ =>
    if d.isDigit then
      let (digits, after) := takeDigits c
      match accumulate maxExponent 0 digits with
      | (n, []) => double negative significand (if down then exponent - n else exponent + n) after
      | (_, dropped) =>
        if significand ≠ 0 ∧ ¬ down then
          .error ⟨.numberOutOfRange, after.offset - dropped.length + 1⟩
        else .ok (.double (Binary64.ofFloat (if negative then -0.0 else 0.0)), after)
    else .error (c.faultAhead .invalidNumber)

/-- Reads the fraction, from behind its point. -/
def readFraction (negative : Bool) (significand : Nat) (exponent : Int) (c : Cursor) :
    Except Fault (Number × Cursor) :=
  let (digits, after) := takeDigits c
  if digits.isEmpty then
    .error (c.faultAhead (if c.rest.isEmpty then .endInValue else .invalidNumber))
  else
    let (n, dropped) := accumulate maxSignificand significand digits
    let exponent := exponent - (digits.length - dropped.length : Nat)
    match after.rest with
    | 'e' :: _ | 'E' :: _ => readExponent negative n exponent after.next
    | _ => double negative n exponent after

/-- The integer with this sign and magnitude, or the binary64 value when it does
not fit; zero with a sign is a binary64 value. -/
def integer (negative : Bool) (n : Nat) : Number :=
  if negative then
    if n = 0 ∨ Nat.pow 2 63 < n then .double (Binary64.ofFloat (-n.toUInt64.toFloat))
    else .integer (-n)
  else .integer n

def readMagnitude (negative : Bool) (c : Cursor) : Except Fault (Number × Cursor) :=
  match c.rest with
  | [] => .error (c.fault .endInValue)
  | d :: _ =>
    if d.isDigit then
      let (digits, after) := takeDigits c
      if d = '0' ∧ digits.length ≠ 1 then .error (c.next.faultAhead .invalidNumber)
      else
        let (n, dropped) := accumulate maxSignificand 0 digits
        match after.rest with
        | '.' :: _ => readFraction negative n dropped.length after.next
        | 'e' :: _ | 'E' :: _ => readExponent negative n dropped.length after.next
        | _ =>
          if dropped.isEmpty then .ok (integer negative n, after)
          else double negative n dropped.length after
    else .error (c.faultAhead .invalidNumber)

def readNumber (c : Cursor) : Except Fault (Number × Cursor) :=
  match c.rest with
  | '-' :: _ => readMagnitude true c.next
  | _ => readMagnitude false c

end ApiTypes.Json
