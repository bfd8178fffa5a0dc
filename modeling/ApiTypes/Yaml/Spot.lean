/-!
# Places in a YAML text

A spot is the unread part of a text with the line, the column and the number of
characters before it.  A line break is one of LF, CR, CR LF, NEL, LS and PS;
all but the last two are read as LF.
-/

namespace ApiTypes.Yaml

/-- The unread characters and where they begin. -/
structure Spot where
  rest : List Char
  line : Nat := 0
  column : Nat := 0
  index : Nat := 0

def isBlank (c : Char) : Bool := c == ' ' || c == '\t'

def isBreak (c : Char) : Bool :=
  c == '\n' || c == '\r' || c == '\u0085' || c == '\u2028' || c == '\u2029'

/-- The characters of anchors and tag handles. -/
def isWordChar (c : Char) : Bool := c.isAlphanum || c == '_' || c == '-'

def isAllowed (c : Char) : Bool :=
  let n := c.toNat
  n == 9 || n == 10 || n == 13 || (32 ≤ n && n ≤ 126) || n == 0x85 ||
    (0xA0 ≤ n && n ≤ 0xFFFD && n != 0xFEFF) || 0x10000 ≤ n

/-- Whether the characters begin with a blank or a break, or have ended. -/
def startsBlank : List Char → Bool
  | [] => true
  | c :: _ => isBlank c || isBreak c

def startsBreak : List Char → Bool
  | [] => true
  | c :: _ => isBreak c

namespace Spot

/-- The spot after one character that is no break. -/
def next (s : Spot) : Spot :=
  { s with rest := s.rest.drop 1, column := s.column + 1, index := s.index + 1 }

/-- The spot after `n` characters that are no breaks. -/
def skip (n : Nat) (s : Spot) : Spot :=
  { s with rest := s.rest.drop n, column := s.column + n, index := s.index + n }

/-- The spot at the start of the next line, `n` characters on. -/
def nextLine (n : Nat) (s : Spot) : Spot :=
  { rest := s.rest.drop n, line := s.line + 1, column := 0, index := s.index + n }

/-- Reads a line break; at another character nothing is read. -/
def readBreak (s : Spot) : List Char × Spot :=
  match s.rest with
  | '\r' :: '\n' :: _ => (['\n'], s.nextLine 2)
  | '\r' :: _ | '\n' :: _ | '\u0085' :: _ => (['\n'], s.nextLine 1)
  | '\u2028' :: _ => (['\u2028'], s.nextLine 1)
  | '\u2029' :: _ => (['\u2029'], s.nextLine 1)
  | _ => ([], s)

/-- Passes the characters that satisfy `p`, none of which is a break. -/
def skipWhile (p : Char → Bool) (s : Spot) : Spot := s.skip (s.rest.takeWhile p).length

/-- Whether a document marker stands here: three dashes or three points at the
start of a line, followed by a blank, a break or the end. -/
def atMarker (s : Spot) : Bool :=
  s.column == 0 &&
    match s.rest with
    | '-' :: '-' :: '-' :: rest | '.' :: '.' :: '.' :: rest => startsBlank rest
    | _ => false

end Spot

end ApiTypes.Yaml
