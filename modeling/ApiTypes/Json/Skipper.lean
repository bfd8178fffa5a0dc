import ApiTypes.Json.Reader

/-!
# Skipping JSON values

A value that nobody wants is passed without being read: its brackets, strings
and numbers must be well formed, but strings may hold lone surrogates, numbers
may be of any size and brackets may be nested to any depth.
-/

namespace ApiTypes.Json
open Text (shortEscape?)

/-- A bracket that is open. -/
inductive Bracket where
  | list
  | object
deriving DecidableEq

/-- Passes an escape, from behind its backslash. -/
def skipEscape (c : Cursor) : Except Fault Cursor :=
  match c.rest with
  | [] => .error (c.fault .endInString)
  | x :: _ =>
    if x = 'u' then (readQuad c.next).map (·.2)
    else if (shortEscape? x).isSome then .ok c.next
    else .error (c.faultAhead .invalidEscape)

/-- Passes a string, from behind its opening quote. -/
def skipString : Nat → Cursor → Except Fault Cursor
  | 0, c => .error (c.fault .endInString)
  | fuel + 1, c =>
    match c.rest with
    | [] => .error (c.fault .endInString)
    | x :: _ =>
      if x = '"' then .ok c.next
      else if x = '\\' then
        match skipEscape c.next with
        | .ok c => skipString fuel c
        | .error fault => .error fault
      else if x.toNat < 32 then .error (c.fault .controlCharacter)
      else skipString fuel c.next

/-- Passes the exponent of a number, from behind its letter. -/
def skipExponent (c : Cursor) : Except Fault Cursor :=
  let c := match c.rest with
    | '+' :: _ | '-' :: _ => c.next
    | _ => c
  if c.rest.head?.any Char.isDigit then .ok (takeDigits c).2
  else .error (c.faultAhead .invalidNumber)

/-- Passes a number, from its first digit on. -/
def skipMagnitude (c : Cursor) : Except Fault Cursor := do
  let (digits, after) := takeDigits c
  if digits.isEmpty then .error (c.faultAhead .invalidNumber)
  else if digits.head? = some '0' ∧ digits.length ≠ 1 then
    .error (c.next.faultAhead .invalidNumber)
  else
    let after ← match after.rest with
      | '.' :: _ =>
        let (fraction, stop) := takeDigits after.next
        if fraction.isEmpty then .error (after.next.faultAhead .invalidNumber) else .ok stop
      | _ => .ok after
    match after.rest with
    | 'e' :: _ | 'E' :: _ => skipExponent after.next
    | _ => .ok after

/-- Passes the beginning of a value: all of a scalar, the bracket of a list or an
object. -/
def skipHead (c : Cursor) : Except Fault (Option Bracket × Cursor) :=
  let c := c.skipBlanks
  match c.rest with
  | [] => .error (c.fault .endInValue)
  | 'n' :: _ => (readWord "null".toList c).map fun c => (none, c)
  | 't' :: _ => (readWord "true".toList c).map fun c => (none, c)
  | 'f' :: _ => (readWord "false".toList c).map fun c => (none, c)
  | '"' :: _ => (skipString (c.rest.length + 1) c.next).map fun c => (none, c)
  | '[' :: _ => .ok (some .list, c.next)
  | '\x7b' :: _ => .ok (some .object, c.next)
  | '-' :: _ => (skipMagnitude c.next).map fun c => (none, c)
  | x :: _ =>
    if x.isDigit then (skipMagnitude c).map fun c => (none, c)
    else .error (c.faultAhead .expectedValue)

def skipKey (c : Cursor) : Except Fault Cursor := do
  let c := c.skipBlanks
  match c.rest with
  | [] => .error (c.fault .endInObject)
  | '"' :: _ =>
    let c ← skipString (c.rest.length + 1) c.next
    readColon c
  | _ => .error (c.faultAhead .keyNotString)

/-- Passes closing brackets and a comma: gives the brackets that are still open,
none if the value has ended. -/
def skipClosings : Nat → Bool → List Bracket → Cursor → Except Fault (List Bracket × Cursor)
  | 0, _, _, c => .error (c.fault .endInValue)
  | _, _, [], c => .ok ([], c)
  | fuel + 1, afterEntry, b :: outer, c =>
    let c := c.skipBlanks
    match c.rest with
    | [] => .error (c.fault (match b with
      | .list => .endInList
      | .object => .endInObject))
    | x :: _ =>
      if x = ',' ∧ afterEntry then .ok (b :: outer, c.next)
      else if (x = ']' ∧ b = .list) ∨ (x = '\x7d' ∧ b = .object) then
        skipClosings fuel true outer c.next
      else if afterEntry then .error (c.faultAhead (match b with
        | .list => .expectedListEnd
        | .object => .expectedObjectEnd))
      else .ok (b :: outer, c)

/-- Passes what is left of a value inside the brackets `pending`. -/
def skipParts : Nat → List Bracket → Cursor → Except Fault Cursor
  | 0, _, c => .error (c.fault .endInValue)
  | fuel + 1, outer, c => do
    let (bracket, c) ← skipHead c
    let pending := bracket.toList ++ outer
    let (pending, c) ← skipClosings (c.rest.length + pending.length + 1) bracket.isNone pending c
    match pending with
    | [] => pure c
    | .list :: _ => skipParts fuel pending c
    | .object :: _ => do
      let c ← skipKey c
      skipParts fuel pending c

def skipValue (c : Cursor) : Except Fault Cursor := skipParts (c.rest.length + 1) [] c

end ApiTypes.Json
