import ApiTypes.Json.Cursor
import ApiTypes.Text.Escape

/-!
# Reading JSON strings

`readString` reads from behind the opening quote to behind the closing one and
resolves the escapes.  An escape `\uXXXX` of a leading surrogate has to be
followed by one of a trailing surrogate.
-/

namespace ApiTypes.Json
open Text (hexValue? shortEscape?)

/-- The value of four hexadecimal digits. -/
def hexQuad? (a b c d : Char) : Option Nat := do
  let a ← hexValue? a
  let b ← hexValue? b
  let c ← hexValue? c
  let d ← hexValue? d
  pure (a * 4096 + b * 256 + c * 16 + d)

/-- Reads four hexadecimal digits.  They take four bytes, whatever stands
there; where fewer bytes are left the text has ended in a string. -/
def readQuad (c : Cursor) : Except Fault (Nat × Cursor) :=
  let left := Cursor.byteCount c.rest
  if left < 4 then .error ⟨.endInString, c.offset + left⟩
  else
    match c.rest with
    | a :: b :: d :: e :: rest =>
      match hexQuad? a b d e with
      | some n => .ok (n, ⟨rest, c.offset + 4⟩)
      | none => .error ⟨.invalidEscape, c.offset + 4⟩
    | _ => .error ⟨.invalidEscape, c.offset + 4⟩

/-- Reads the character `expected` between two surrogate escapes. -/
def readLink (expected : Char) (c : Cursor) : Except Fault Cursor :=
  match c.rest with
  | [] => .error (c.fault .endInString)
  | x :: _ => if x = expected then .ok c.next else .error (c.faultAhead .unpairedEscape)

def readUnicodeEscape (c : Cursor) : Except Fault (Char × Cursor) := do
  let (n, c) ← readQuad c
  if 0xDC00 ≤ n ∧ n ≤ 0xDFFF then .error (c.fault .loneSurrogate)
  else if 0xD800 ≤ n ∧ n ≤ 0xDBFF then
    let c ← readLink '\\' c
    let c ← readLink 'u' c
    let (m, c) ← readQuad c
    if 0xDC00 ≤ m ∧ m ≤ 0xDFFF then
      pure (Char.ofNat ((n - 0xD800) * 1024 + (m - 0xDC00) + 0x10000), c)
    else .error (c.fault .loneSurrogate)
  else pure (Char.ofNat n, c)

def readEscape (c : Cursor) : Except Fault (Char × Cursor) :=
  match c.rest with
  | [] => .error (c.fault .endInString)
  | x :: _ =>
    if x = 'u' then readUnicodeEscape c.next
    else
      match shortEscape? x with
      | some y => .ok (y, c.next)
      | none => .error (c.faultAhead .invalidEscape)

/-- Reads the characters up to the closing quote, `fuel` of them at most. -/
def readChars : Nat → Cursor → Except Fault (List Char × Cursor)
  | 0, c => .error (c.fault .endInString)
  | fuel + 1, c =>
    match c.rest with
    | [] => .error (c.fault .endInString)
    | x :: _ =>
      if x = '"' then .ok ([], c.next)
      else if x = '\\' then
        match readEscape c.next with
        | .error fault => .error fault
        | .ok (y, c) => (readChars fuel c).map fun (ys, c) => (y :: ys, c)
      else if x.toNat < 32 then .error (c.next.fault .controlCharacter)
      else (readChars fuel c.next).map fun (ys, c) => (x :: ys, c)

/-- Reads a string from behind its opening quote. -/
def readString (c : Cursor) : Except Fault (String × Cursor) :=
  (readChars (c.rest.length + 1) c).map fun (chars, c) => (String.ofList chars, c)

end ApiTypes.Json
