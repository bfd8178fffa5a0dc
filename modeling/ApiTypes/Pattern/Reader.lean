import ApiTypes.Pattern.Basic
import ApiTypes.Text.Escape

/-!
# Reading patterns

The usual notation of regular expressions without look-around and references
back: classes, groups, alternatives, counted and lazy repetitions, flags.  A
pattern that is not well formed is none.
-/

namespace ApiTypes.Pattern

/-- The flags that are in force. -/
structure Flags where
  ignoreCase : Bool := false
  multiLine : Bool := false
  dotAll : Bool := false
  swapGreed : Bool := false
  ignoreBlanks : Bool := false
  unicode : Bool := true

/-- A pattern that has been read, with the names of its groups; group zero is
the whole match. -/
structure Compiled where
  pattern : Pattern
  /-- The name of each group from the first one on, if it has one. -/
  names : List (Option String)

/-- The state of reading. -/
structure Reading where
  rest : List Char
  names : List (Option String) := []

/-- A step of reading, which may find the pattern malformed. -/
abbrev Read (α : Type) := StateT Reading Option α

namespace Read

def refuse {α : Type} : Read α := fun _ => none

def peek : Read (Option Char) := fun r => some (r.rest.head?, r)

def skip : Read Unit := modify fun r => { r with rest := r.rest.drop 1 }

def next : Read Char := fun r =>
  match r.rest with
  | c :: rest => some (c, { r with rest })
  | [] => none

/-- Passes `c` if it is next. -/
def skipIf (c : Char) : Read Bool := do
  if (← peek) = some c then
    skip
    pure true
  else pure false

/-- Passes the characters `cs` if they are next. -/
def skipText (cs : List Char) : Read Bool := do
  let r ← get
  match cs.isPrefixOf? r.rest with
  | some rest =>
    modify ({ · with rest })
    pure true
  | none => pure false

/-- Passes the characters that satisfy `p`. -/
def takeWhile (p : Char → Bool) : Read (List Char) := do
  let r ← get
  modify fun r => { r with rest := r.rest.dropWhile p }
  pure (r.rest.takeWhile p)

/-- Passes blanks and comments where they are ignored. -/
def skipBlanks (flags : Flags) : Nat → Read Unit
  | 0 => pure ()
  | fuel + 1 => do
    if flags.ignoreBlanks then
      match ← peek with
      | some c =>
        if Unicode.isBlank c then
          skip
          skipBlanks flags fuel
        else if c == '#' then
          let _ ← takeWhile (· ≠ '\n')
          skipBlanks flags fuel
        else pure ()
      | none => pure ()

/-! ### Escapes and classes -/

def codePoint (digits : List Char) : Read Char := do
  if digits.isEmpty then refuse
  else
    match Text.hexNumber? digits with
    | some n => if h : n.isValidChar then pure (Char.ofNatAux n h) else refuse
    | none => refuse

/-- Reads a code point: digits in braces, or `width` digits. -/
def readCodePoint (width : Nat) : Read Char := do
  if ← skipIf '\x7b' then
    let digits ← takeWhile (· ≠ '\x7d')
    if ← skipIf '\x7d' then codePoint digits else refuse
  else
    let r ← get
    if r.rest.length < width then refuse
    else
      modify fun r => { r with rest := r.rest.drop width }
      codePoint (r.rest.take width)

/-- The characters that may follow a backslash to stand for themselves. -/
def isPunctuation (c : Char) : Bool :=
  c.toNat < 128 && !c.isAlphanum && c != '<' && c != '>'

/-- Reads an escape that stands for characters, from behind its backslash. -/
def readEscape (flags : Flags) (c : Char) : Read CharSet := do
  let one (c : Char) : CharSet := .range c c
  match c with
  | 'd' => pure (.digit flags.unicode)
  | 'D' => pure (.negate (.digit flags.unicode))
  | 'w' => pure (.word flags.unicode)
  | 'W' => pure (.negate (.word flags.unicode))
  | 's' => pure (.blank flags.unicode)
  | 'S' => pure (.negate (.blank flags.unicode))
  | 'a' => pure (one '\x07')
  | 'f' => pure (one '\x0c')
  | 't' => pure (one '\t')
  | 'n' => pure (one '\n')
  | 'r' => pure (one '\r')
  | 'v' => pure (one '\x0b')
  | 'x' => one <$> readCodePoint 2
  | 'u' => one <$> readCodePoint 4
  | 'U' => one <$> readCodePoint 8
  | _ => if isPunctuation c then pure (one c) else refuse

def posixClass? (name : String) : Option CharSet :=
  let lower : CharSet := .range 'a' 'z'
  let upper : CharSet := .range 'A' 'Z'
  let digit : CharSet := .range '0' '9'
  match name with
  | "alnum" => some (.union (.union lower upper) digit)
  | "alpha" => some (.union lower upper)
  | "ascii" => some (.range '\x00' '\x7f')
  | "blank" => some (.union (.range ' ' ' ') (.range '\t' '\t'))
  | "cntrl" => some (.union (.range '\x00' '\x1f') (.range '\x7f' '\x7f'))
  | "digit" => some digit
  | "graph" => some (.range '!' '~')
  | "lower" => some lower
  | "print" => some (.range ' ' '~')
  | "punct" => some (.inter (.range '!' '~') (.negate (.union (.union lower upper) digit)))
  | "space" => some (.union (.range ' ' ' ') (.range '\t' '\r'))
  | "upper" => some upper
  | "word" => some (.union (.union (.union lower upper) digit) (.range '_' '_'))
  | "xdigit" => some (.union digit (.union (.range 'a' 'f') (.range 'A' 'F')))
  | _ => none

/-- Reads an ASCII class, from its bracket, if one stands here. -/
def readPosix : Read (Option CharSet) := do
  let r ← get
  match r.rest with
  | '[' :: ':' :: rest =>
    let (negated, rest) := match rest with
      | '^' :: rest => (true, rest)
      | rest => (false, rest)
    let name := rest.takeWhile Char.isAlpha
    match posixClass? (String.ofList name), rest.drop name.length with
    | some s, ':' :: ']' :: rest =>
      modify ({ · with rest })
      pure (some (if negated then .negate s else s))
    | _, _ => pure none
  | _ => pure none

def single? : CharSet → Option Char
  | .range a b => if a = b then some a else none
  | _ => none

def withCase (flags : Flags) (s : CharSet) : CharSet :=
  if flags.ignoreCase then .eitherCase s else s

def readClassAtom (flags : Flags) : Read CharSet := do
  let c ← next
  if c = '\\' then
    let e ← next
    readEscape flags e
  else pure (.range c c)

mutual

/-- Reads what follows the opening bracket of a class: hyphens and then a closing
bracket stand for themselves here. -/
def readClass (flags : Flags) : Nat → Read CharSet
  | 0 => refuse
  | fuel + 1 => do
    let negated ← skipIf '^'
    let hyphens ← takeWhile (· = '-')
    let first : CharSet ← (do
      if hyphens.isEmpty then
        if ← skipIf ']' then pure (.range ']' ']') else pure .none
      else pure (.range '-' '-'))
    let s ← readClassItems flags fuel id first
    pure (if negated then .negate s else s)

/-- Reads the items of a class and its bracket; `acc` is what precedes since the
last operator, which `join` applies to what precedes that. -/
def readClassItems (flags : Flags) : Nat → (CharSet → CharSet) → CharSet → Read CharSet
  | 0, _, _ => refuse
  | fuel + 1, join, acc => do
    let left := join (withCase flags acc)
    if ← skipIf ']' then pure left
    else if ← skipText ['&', '&'] then readClassItems flags fuel (.inter left) .none
    else if ← skipText ['-', '-'] then
      readClassItems flags fuel (fun s => .inter left (.negate s)) .none
    else if ← skipText ['~', '~'] then
      readClassItems flags fuel
        (fun s => .union (.inter left (.negate s)) (.inter s (.negate left))) .none
    else
      match ← readPosix with
      | some s => readClassItems flags fuel join (.union acc s)
      | none =>
        if ← skipIf '[' then
          let s ← readClass flags fuel
          readClassItems flags fuel join (.union acc s)
        else
          let s ← readClassAtom flags
          let r ← get
          match r.rest with
          | '-' :: c :: _ =>
            if c = ']' ∨ c = '-' then readClassItems flags fuel join (.union acc s)
            else
              skip
              let t ← readClassAtom flags
              match single? s, single? t with
              | some a, some b =>
                if a ≤ b then readClassItems flags fuel join (.union acc (.range a b)) else refuse
              | _, _ => refuse
          | _ => readClassItems flags fuel join (.union acc s)

end

/-! ### Flags and repetitions -/

/-- The flags after the letter `c` sets one to `on`. -/
def Flags.with? (on : Bool) (flags : Flags) : Char → Option Flags
  | 'i' => some { flags with ignoreCase := on }
  | 'm' => some { flags with multiLine := on }
  | 's' => some { flags with dotAll := on }
  | 'U' => some { flags with swapGreed := on }
  | 'x' => some { flags with ignoreBlanks := on }
  | 'u' => some { flags with unicode := on }
  | 'R' => some flags
  | _ => none

/-- Reads the letters of flags up to a colon or a parenthesis, which is passed too.
No letter stands twice; those behind a hyphen turn flags off, and there must be
one. -/
def readFlags : Nat → (off : Bool) → (seen : List Char) → Flags → Read (Flags × Char)
  | 0, _, _, _ => refuse
  | fuel + 1, off, seen, flags => do
    let c ← next
    if c = ':' || c = ')' then
      if seen.head? = some '-' || (seen.isEmpty && c = ')') then refuse else pure (flags, c)
    else if seen.contains c then refuse
    else if c = '-' then readFlags fuel true (c :: seen) flags
    else
      match Flags.with? (!off) flags c with
      | some flags => readFlags fuel off (c :: seen) flags
      | none => refuse

/-- Reads a number; blanks may stand around it. -/
def readNumber : Read (Option Nat) := do
  let _ ← takeWhile Unicode.isBlank
  let digits ← takeWhile Char.isDigit
  let _ ← takeWhile Unicode.isBlank
  pure (if digits.isEmpty then none else (String.ofList digits).toNat?)

/-- Reads the counts of a repetition, from behind the brace. -/
def readCounts : Read (Nat × Option Nat) := do
  match ← readNumber with
  | none => refuse
  | some least =>
    if ← skipIf '\x7d' then pure (least, some least)
    else if ← skipIf ',' then
      let most ← readNumber
      if ← skipIf '\x7d' then
        match most with
        | some n => if n < least then refuse else pure (least, some n)
        | none => pure (least, none)
      else refuse
    else refuse

def readRounds (flags : Flags) : Nat → Pattern → Read Pattern
  | 0, p => pure p
  | fuel + 1, p => do
    skipBlanks flags (fuel + 1)
    let counts : Option (Nat × Option Nat) ← (do
      if ← skipIf '*' then pure (some (0, none))
      else if ← skipIf '+' then pure (some (1, none))
      else if ← skipIf '?' then pure (some (0, some 1))
      else if ← skipIf '\x7b' then some <$> readCounts
      else pure none)
    match counts with
    | none => pure p
    | some (least, most) =>
      let lazily ← skipIf '?'
      readRounds flags fuel (.rounds p least most (lazily == flags.swapGreed))

/-! ### Patterns -/

/-- Reads the name of a group and the bracket behind it. -/
def readName : Read String := do
  let name ← takeWhile (· ≠ '>')
  let c ← next
  let valid := match name with
    | [] => false
    | d :: _ => (d.isAlpha || d == '_') &&
        name.all fun d => d.isAlphanum || d == '_' || d == '.' || d == '[' || d == ']'
  let known := (← get).names
  if c = '>' && valid && !known.contains (some (String.ofList name)) then
    pure (String.ofList name)
  else refuse

/-- Opens a group that is remembered; gives its number. -/
def openGroup (name : Option String) : Read Nat := do
  let r ← get
  modify fun r => { r with names := r.names ++ [name] }
  pure (r.names.length + 1)

/-- What a letter that is no escape for characters asserts, behind a backslash. -/
def look? (flags : Flags) : Char → Option Look
  | '<' => some (.wordStart flags.unicode)
  | '>' => some (.wordEnd flags.unicode)
  | 'b' => some (.wordEdge flags.unicode)
  | 'B' => some (.noWordEdge flags.unicode)
  | 'A' => some .textStart
  | 'z' => some .textEnd
  | _ => none

/-- What a name in braces behind an edge of a word asserts. -/
def namedEdge? (flags : Flags) : String → Option Look
  | "start" => some (.wordStart flags.unicode)
  | "end" => some (.wordEnd flags.unicode)
  | "start-half" => some (.noWordBefore flags.unicode)
  | "end-half" => some (.noWordAfter flags.unicode)
  | _ => none

/-- Reads the name in braces behind an edge of a word, if there is one: braces
that do not begin with a letter or a hyphen are a repetition. -/
def readEdge (flags : Flags) (l : Look) : Read Look := do
  let isNameChar (c : Char) : Bool := c.isAlpha || c == '-'
  match l, (← get).rest with
  | .wordEdge _, '\x7b' :: c :: _ =>
    if isNameChar c then
      skip
      let name ← takeWhile isNameChar
      match ← skipIf '\x7d', namedEdge? flags (String.ofList name) with
      | true, some l => pure l
      | _, _ => refuse
    else pure l
  | l, _ => pure l

mutual

/-- Reads alternatives up to a closing parenthesis or the end. -/
def readAlternatives : Nat → Flags → Read Pattern
  | 0, _ => refuse
  | fuel + 1, flags => do
    let (a, flags) ← readSequence fuel flags .empty
    if ← skipIf '|' then
      let b ← readAlternatives fuel flags
      pure (.alt a b)
    else pure a

/-- Reads the items of a sequence; flags that are set in it stay in force behind
it. -/
def readSequence : Nat → Flags → Pattern → Read (Pattern × Flags)
  | 0, _, _ => refuse
  | fuel + 1, flags, acc => do
    skipBlanks flags (fuel + 1)
    match ← peek with
    | none | some '|' | some ')' => pure (acc, flags)
    | some '(' =>
      skip
      if ← skipIf '?' then
        if ← (do pure ((← skipText ['P', '<']) || (← skipText ['<']))) then
          let i ← openGroup (some (← readName))
          group fuel flags acc (some i) flags
        else
          let (inner, stop) ← readFlags (fuel + 1) false [] flags
          if stop = ':' then group fuel flags acc none inner
          else readSequence fuel inner acc
      else
        let i ← openGroup none
        group fuel flags acc (some i) flags
    | some '[' =>
      skip
      let s ← readClass flags fuel
      repeated fuel flags acc (.set s)
    | some '.' =>
      skip
      repeated fuel flags acc
        (.set (if flags.dotAll then .any else .negate (.range '\n' '\n')))
    | some '^' =>
      skip
      repeated fuel flags acc (.look (if flags.multiLine then .lineStart else .textStart))
    | some '$' =>
      skip
      repeated fuel flags acc (.look (if flags.multiLine then .lineEnd else .textEnd))
    | some '\\' =>
      skip
      let c ← next
      match look? flags c with
      | some l =>
        let l ← readEdge flags l
        repeated fuel flags acc (.look l)
      | none =>
        let s ← readEscape flags c
        repeated fuel flags acc (.set (withCase flags s))
    | some '*' | some '+' | some '?' | some '\x7b' => refuse
    | some c =>
      skip
      repeated fuel flags acc (.set (withCase flags (.range c c)))

/-- Reads a group behind its opening, and what follows it. -/
def group (fuel : Nat) (flags : Flags) (acc : Pattern) (index : Option Nat) (inner : Flags) :
    Read (Pattern × Flags) :=
  match fuel with
  | 0 => refuse
  | fuel + 1 => do
    let p ← readAlternatives fuel inner
    if ← skipIf ')' then
      repeated fuel flags acc (match index with
        | some i => .group i p
        | none => p)
    else refuse

def repeated (fuel : Nat) (flags : Flags) (acc item : Pattern) : Read (Pattern × Flags) :=
  match fuel with
  | 0 => refuse
  | fuel + 1 => do
    let item ← readRounds flags (fuel + 1) item
    readSequence fuel flags (.seq acc item)

end

end Read

/-- Reads a pattern; nothing if it is not well formed. -/
def read? (flags : Flags) (text : String) : Option Compiled :=
  let chars := text.toList
  match (Read.readAlternatives (6 * chars.length + 8) flags).run { rest := chars } with
  | some (pattern, r) => if r.rest.isEmpty then some ⟨pattern, r.names⟩ else none
  | none => none

end ApiTypes.Pattern
