import ApiTypes.Text.Escape
import ApiTypes.Yaml.Spot

/-!
# Reading YAML scalars

Plain, quoted and block scalars.  Inside a plain or quoted scalar a line break
is folded: one break becomes a blank, and of several all but the first remain.
Each reader gives nothing where the text is malformed.
-/

namespace ApiTypes.Yaml

/-! ### Gaps -/

/-- The blanks and breaks between two words of a scalar. -/
structure Gap where
  /-- The blanks before the first break. -/
  blanks : List Char := []
  /-- Whether there is a break. -/
  broken : Bool := false
  /-- The first break. -/
  first : List Char := []
  /-- The breaks after the first. -/
  others : List Char := []

def foldBreaks (first others : List Char) : List Char :=
  if first = ['\n'] then (if others.isEmpty then [' '] else others) else first ++ others

def Gap.text (g : Gap) : List Char :=
  if g.broken then foldBreaks g.first g.others else g.blanks

/-- Reads the blanks and breaks at `s` into `g`.  Below column `limit` a tab
must not begin a line. -/
def readGap (limit : Int) : Nat → Gap → Spot → Option (Gap × Spot)
  | 0, g, s => some (g, s)
  | fuel + 1, g, s =>
    match s.rest with
    | [] => some (g, s)
    | c :: _ =>
      if isBlank c then
        if g.broken then
          if c == '\t' && (s.column : Int) < limit then none else readGap limit fuel g s.next
        else readGap limit fuel { g with blanks := g.blanks ++ [c] } s.next
      else if isBreak c then
        let (b, s) := s.readBreak
        if g.broken then readGap limit fuel { g with others := g.others ++ b } s
        else readGap limit fuel { g with blanks := [], broken := true, first := b } s
      else some (g, s)

/-! ### Quoted scalars -/

/-- The character that a letter stands for after a backslash. -/
def escape? : Char → Option Char
  | '0' => some '\x00'
  | 'a' => some '\x07'
  | 'b' => some '\x08'
  | 't' | '\t' => some '\t'
  | 'n' => some '\n'
  | 'v' => some '\x0b'
  | 'f' => some '\x0c'
  | 'r' => some '\r'
  | 'e' => some '\x1b'
  | ' ' => some ' '
  | '"' => some '"'
  | '/' => some '/'
  | '\\' => some '\\'
  | 'N' => some '\u0085'
  | '_' => some '\u00a0'
  | 'L' => some '\u2028'
  | 'P' => some '\u2029'
  | _ => none

/-- How many hexadecimal digits follow a letter after a backslash. -/
def escapeWidth : Char → Nat
  | 'x' => 2
  | 'u' => 4
  | 'U' => 8
  | _ => 0

def readEscape (s : Spot) : Option (Char × Spot) :=
  match s.rest with
  | _ :: c :: rest =>
    match escapeWidth c with
    | 0 => (escape? c).map fun e => (e, s.skip 2)
    | width => do
      let digits := rest.take width
      if digits.length < width then none
      else
        let n ← Text.hexNumber? digits
        if (0xD800 ≤ n ∧ n ≤ 0xDFFF) ∨ 0x10FFFF < n then none
        else some (Char.ofNat n, s.skip (2 + width))
  | _ => none

/-- Reads a quoted scalar up to its closing quote; `acc` holds the characters so
far, the last one first. -/
def readQuoted (single : Bool) : Nat → List Char → Spot → Option (List Char × Spot)
  | 0, _, _ => none
  | fuel + 1, acc, s =>
    -- a gap ends where a word begins, which must not be a document marker
    let afterGap (g : Gap) (s : Spot) : Option (List Char × Spot) := do
      let (g, s) ← readGap 0 (s.rest.length + 1) g s
      if s.atMarker then none else readQuoted single fuel (g.text.reverse ++ acc) s
    match s.rest with
    | [] => none
    | c :: rest =>
      if isBlank c || isBreak c then afterGap {} s
      else if single then
        if c = '\'' then
          if rest.head? = some '\'' then readQuoted single fuel ('\'' :: acc) (s.skip 2)
          else some (acc.reverse, s.next)
        else readQuoted single fuel (c :: acc) s.next
      else if c = '"' then some (acc.reverse, s.next)
      else if c = '\\' then
        if !rest.isEmpty && startsBreak rest then afterGap { broken := true } s.next.readBreak.2
        else
          match readEscape s with
          | some (e, s) => readQuoted single fuel (e :: acc) s
          | none => none
      else readQuoted single fuel (c :: acc) s.next

/-! ### Plain scalars -/

/-- The characters that end a plain scalar between brackets. -/
def isFlowIndicator (c : Char) : Bool :=
  c == ',' || c == '[' || c == ']' || c == '\x7b' || c == '\x7d'

/-- Reads a plain scalar.  Outside of brackets it goes on as long as its lines
are indented by `indent`.  The flag that is returned says whether a line break
was passed at its end. -/
def readPlain (flow : Bool) (indent : Int) :
    Nat → List Char → Gap → Bool → Spot → Option (List Char × Bool × Spot)
  | 0, acc, g, _, s => some (acc.reverse, g.broken, s)
  | fuel + 1, acc, g, wordStart, s =>
    let done : Option (List Char × Bool × Spot) := some (acc.reverse, g.broken, s)
    match s.rest with
    | [] => done
    | c :: rest =>
      if wordStart && (s.atMarker || c == '#') then done
      else if isBlank c || isBreak c then do
        let (g, s) ← readGap indent (s.rest.length + 1) {} s
        if !flow && (s.column : Int) < indent then some (acc.reverse, g.broken, s)
        else readPlain flow indent fuel acc g true s
      else if flow && c == ':' && rest.head?.any (fun d => isFlowIndicator d || d == '?') then none
      else if (c == ':' && startsBlank rest) || (flow && isFlowIndicator c) then done
      else readPlain flow indent fuel (c :: (g.text.reverse ++ acc)) {} false s.next

/-! ### Block scalars -/

/-- What becomes of the line breaks at the end of a block scalar. -/
inductive Chomping where
  | strip
  | clip
  | keep
deriving DecidableEq

/-- Reads the header of a block scalar behind its indicator: a chomping mark and
an indentation digit, in either order. -/
def readHeader (s : Spot) : Option (Chomping × Nat × Spot) :=
  let mark (s : Spot) : Chomping × Spot :=
    match s.rest with
    | '+' :: _ => (.keep, s.next)
    | '-' :: _ => (.strip, s.next)
    | _ => (.clip, s)
  let digit (s : Spot) : Option (Nat × Spot) :=
    match s.rest with
    | c :: _ =>
      if c.isDigit then (if c = '0' then none else some (c.toNat - 48, s.next)) else some (0, s)
    | [] => some (0, s)
  match mark s with
  | (.clip, s) => do
    let (n, s) ← digit s
    if n = 0 then some (.clip, 0, s)
    else
      let (m, s) := mark s
      some (m, n, s)
  | (m, s) => do
    let (n, s) ← digit s
    some (m, n, s)

/-- Reads indentation and empty lines before a line of a block scalar; `indent`
is zero as long as it is not known.  Gives the breaks read, the greatest column
reached and the spot at the line. -/
def readIndentation (indent : Nat) :
    Nat → List Char → Nat → Spot → Option (List Char × Nat × Spot)
  | 0, breaks, reached, s => some (breaks, reached, s)
  | fuel + 1, breaks, reached, s =>
    let spaces := (s.rest.takeWhile (· == ' ')).length
    let s := s.skip (if indent = 0 then spaces else min spaces (indent - s.column))
    let reached := max reached s.column
    match s.rest with
    | [] => some (breaks, reached, s)
    | c :: _ =>
      if (indent = 0 ∨ s.column < indent) ∧ c = '\t' then none
      else if isBreak c then
        let (b, s) := s.readBreak
        readIndentation indent fuel (breaks ++ b) reached s
      else some (breaks, reached, s)

/-- Reads the lines of a block scalar.  `acc` holds its characters so far, last
first, `first` the break after the last line and `others` those after it. -/
def readLines (literal : Bool) (chomping : Chomping) (indent : Nat) :
    Nat → List Char → List Char → List Char → Bool → Spot → Option (List Char × Spot)
  | 0, _, _, _, _, _ => none
  | fuel + 1, acc, first, others, blankBefore, s =>
    if s.column = indent ∧ ¬ s.rest.isEmpty then do
      let blankHere := s.rest.head?.any isBlank
      let acc :=
        if !literal && first == ['\n'] && !blankBefore && !blankHere then
          if others.isEmpty then ' ' :: acc else others.reverse ++ acc
        else others.reverse ++ (first.reverse ++ acc)
      let line := s.rest.takeWhile fun c => !isBreak c
      let (first, s) := (s.skip line.length).readBreak
      let (others, _, s) ← readIndentation indent (s.rest.length + 1) [] 0 s
      readLines literal chomping indent fuel (line.reverse ++ acc) first others blankHere s
    else
      let tail := match chomping with
        | .strip => []
        | .clip => first
        | .keep => first ++ others
      some (acc.reverse ++ tail, s)

/-- Reads a block scalar behind its indicator, inside a collection indented by
`outer`. -/
def readBlock (literal : Bool) (outer : Int) (s : Spot) : Option (List Char × Spot) := do
  let (chomping, width, s) ← readHeader s
  let s := s.skipWhile isBlank
  let s := if s.rest.head? = some '#' then s.skipWhile (fun c => !isBreak c) else s
  if !startsBreak s.rest then none
  else
    let s := s.readBreak.2
    let indent : Nat := if width = 0 then 0 else (if 0 ≤ outer then outer.toNat + width else width)
    let (others, reached, s) ← readIndentation indent (s.rest.length + 1) [] 0 s
    let indent := if indent = 0 then max reached (max (outer + 1).toNat 1) else indent
    readLines literal chomping indent (s.rest.length + 1) [] [] others false s

end ApiTypes.Yaml
