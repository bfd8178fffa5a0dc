import ApiTypes.Json.Fault

/-!
# Cursors

A cursor is the unread part of a text and the number of bytes read before it.
A fault in the next character counts that character's first byte as read.
-/

namespace ApiTypes.Json

/-- The unread characters and the number of bytes before them. -/
structure Cursor where
  rest : List Char
  offset : Nat
deriving DecidableEq, Repr

namespace Cursor

def ofString (text : String) : Cursor := ⟨text.toList, 0⟩

/-- Blanks between the parts of a JSON text. -/
def isBlank (c : Char) : Bool := c == ' ' || c == '\n' || c == '\t' || c == '\r'

def next : Cursor → Cursor
  | ⟨[], offset⟩ => ⟨[], offset⟩
  | ⟨c :: rest, offset⟩ => ⟨rest, offset + c.utf8Size⟩

/-- Passes the blanks that begin `rest`. -/
def skipFrom : List Char → Nat → Cursor
  | [], offset => ⟨[], offset⟩
  | c :: rest, offset => if isBlank c then skipFrom rest (offset + 1) else ⟨c :: rest, offset⟩

def skipBlanks (c : Cursor) : Cursor := skipFrom c.rest c.offset

/-- A fault found by what has been read. -/
def fault (c : Cursor) (cause : Malformed) : Fault := ⟨cause, c.offset⟩

/-- A fault found by a look at the next byte. -/
def faultAhead (c : Cursor) (cause : Malformed) : Fault :=
  ⟨cause, if c.rest.isEmpty then c.offset else c.offset + 1⟩

/-- The number of bytes that `chars` take. -/
def byteCount (chars : List Char) : Nat := chars.foldl (fun n c => n + c.utf8Size) 0

end Cursor

end ApiTypes.Json
