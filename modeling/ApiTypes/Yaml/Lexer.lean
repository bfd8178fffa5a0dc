import ApiTypes.Yaml.Tag
import ApiTypes.Yaml.Token

/-!
# From YAML text to tokens

The lexer keeps the open block collections as a stack of indents.  Wherever a
key without an indicator may begin it remembers the place; when a colon follows
on the same line, and within 1024 characters, the tokens that open a mapping
and mark the key are put in front.  A remembered place that has to be a key,
because it stands at the indent of a block mapping, must get its colon.
-/

namespace ApiTypes.Yaml

/-- A place at which a key may have begun. -/
structure Candidate where
  required : Bool
  /-- The number of tokens before the key. -/
  position : Nat
  line : Nat
  column : Nat
  index : Nat

/-- The state between two tokens. -/
structure Lexer where
  spot : Spot
  tokens : Array Token := #[]
  /-- The indent of the innermost block collection; below zero outside of all. -/
  indent : Int := -1
  indents : List Int := []
  /-- Whether a key may begin here. -/
  keyAllowed : Bool := true
  /-- The candidate outside of all brackets. -/
  candidate : Option Candidate := none
  /-- The candidates outside of each open bracket, the innermost first. -/
  outer : List (Option Candidate) := []

namespace Lexer

def inFlow (l : Lexer) : Bool := !l.outer.isEmpty

def emit (t : Token) (l : Lexer) : Lexer := { l with tokens := l.tokens.push t }

/-- Adds a token and goes on behind it. -/
def emitAt (t : Token) (s : Spot) (l : Lexer) : Lexer :=
  { l with tokens := l.tokens.push t, spot := s }

/-- Puts tokens in front of those from `position` on. -/
def insertAt (position : Nat) (ts : Array Token) (l : Lexer) : Lexer :=
  { l with tokens :=
      l.tokens.extract 0 position ++ ts ++ l.tokens.extract position l.tokens.size }

/-- Closes the block collections indented by more than `column`. -/
def unroll (column : Int) : List Int → Lexer → Lexer
  | [], l => l
  | i :: rest, l =>
    if column < l.indent then
      unroll column rest { l.emit .blockEnd with indent := i, indents := rest }
    else l

/-- Closes the block collections indented by more than `column`; brackets suspend
indentation. -/
def unrollTo (column : Int) (l : Lexer) : Lexer :=
  if l.inFlow then l else unroll column l.indents l

/-- Opens a block collection at `column` if that is a deeper indent; the token
is put at `position`. -/
def roll (column : Nat) (position : Nat) (t : Token) (l : Lexer) : Lexer :=
  if !l.inFlow && l.indent < column then
    { l.insertAt position #[t] with indents := l.indent :: l.indents, indent := column }
  else l

/-- Forgets a candidate that is on another line or too far back. -/
def expire (s : Spot) : Option Candidate → Option (Option Candidate)
  | none => some none
  | some c =>
    if c.line < s.line ∨ c.index + 1024 < s.index then
      if c.required then none else some none
    else some (some c)

/-- Forgets the candidates that are no longer possible. -/
def expireAll (l : Lexer) : Option Lexer := do
  let candidate ← expire l.spot l.candidate
  let outer ← l.outer.mapM (expire l.spot)
  pure { l with candidate, outer }

/-- Forgets the candidate that precedes a token which cannot follow a key. -/
def dropCandidate (l : Lexer) : Option Lexer :=
  match l.candidate with
  | some c => if c.required then none else some { l with candidate := none }
  | none => some l

/-- Remembers this place as one at which a key may begin. -/
def saveCandidate (l : Lexer) : Option Lexer :=
  if l.keyAllowed then do
    let required := !l.inFlow && l.indent == (l.spot.column : Int)
    let l ← l.dropCandidate
    let s := l.spot
    pure { l with candidate := some ⟨required, l.tokens.size, s.line, s.column, s.index⟩ }
  else some l

/-- Passes blanks, comments and breaks. -/
def skipGaps : Nat → Lexer → Lexer
  | 0, l => l
  | fuel + 1, l =>
    let isGap c := c == ' ' || ((l.inFlow || !l.keyAllowed) && c == '\t')
    let s := l.spot.skipWhile isGap
    let s := if s.rest.head? = some '#' then s.skipWhile (fun c => !isBreak c) else s
    match s.rest with
    | c :: _ =>
      if isBreak c then
        skipGaps fuel { l with spot := s.readBreak.2, keyAllowed := l.keyAllowed || !l.inFlow }
      else { l with spot := s }
    | [] => { l with spot := s }

/-! ### Single tokens -/

/-- A token at the left margin, which ends all block collections. -/
def marginToken (t : Token) (l : Lexer) (s : Spot) : Option Lexer := do
  let l ← (l.unrollTo (-1)).dropCandidate
  pure { l.emitAt t s with keyAllowed := false }

def openFlow (t : Token) (l : Lexer) : Option Lexer := do
  let l ← l.saveCandidate
  pure { l.emitAt t l.spot.next with
    outer := l.candidate :: l.outer, candidate := none, keyAllowed := true }

def closeFlow (t : Token) (l : Lexer) : Option Lexer := do
  let l ← l.dropCandidate
  let l := { l.emitAt t l.spot.next with keyAllowed := false }
  match l.outer with
  | c :: outer => pure { l with candidate := c, outer }
  | [] => pure l

def flowEntry (l : Lexer) : Option Lexer := do
  let l ← l.dropCandidate
  pure { l.emitAt .flowEntry l.spot.next with keyAllowed := true }

def blockEntry (l : Lexer) : Option Lexer := do
  if !l.inFlow && !l.keyAllowed then none
  else
    let l ← (l.roll l.spot.column l.tokens.size .blockSequence).dropCandidate
    pure { l.emitAt .blockEntry l.spot.next with keyAllowed := true }

def explicitKey (l : Lexer) : Option Lexer := do
  if !l.inFlow && !l.keyAllowed then none
  else
    let l ← (l.roll l.spot.column l.tokens.size .blockMapping).dropCandidate
    pure { l.emitAt .key l.spot.next with keyAllowed := !l.inFlow }

def mappingValue (l : Lexer) : Option Lexer :=
  match l.candidate with
  | some c =>
    let l := (l.insertAt c.position #[.key]).roll c.column c.position .blockMapping
    some { l.emitAt .value l.spot.next with candidate := none, keyAllowed := false }
  | none =>
    if !l.inFlow && !l.keyAllowed then none
    else
      let l := l.roll l.spot.column l.tokens.size .blockMapping
      some { l.emitAt .value l.spot.next with keyAllowed := !l.inFlow }

def keyToken (read : Spot → Option (Token × Spot)) (l : Lexer) : Option Lexer := do
  let l ← l.saveCandidate
  let (t, s) ← read l.spot
  pure { l.emitAt t s with keyAllowed := false }

def quotedScalar (single : Bool) (s : Spot) : Option (Token × Spot) :=
  (readQuoted single (s.rest.length + 1) [] s.next).map fun (text, s) =>
    (.scalar (String.ofList text) false, s)

def plainScalar (l : Lexer) : Option Lexer := do
  let l ← l.saveCandidate
  let s := l.spot
  let (text, broken, s) ← readPlain l.inFlow (l.indent + 1) (s.rest.length + 1) [] {} true s
  pure { l.emitAt (.scalar (String.ofList text) true) s with keyAllowed := broken }

def blockScalar (literal : Bool) (l : Lexer) : Option Lexer := do
  let l ← l.dropCandidate
  let (text, s) ← readBlock literal l.indent l.spot.next
  pure { l.emitAt (.scalar (String.ofList text) false) s with keyAllowed := true }

/-- Whether a plain scalar may begin with `c`, before `rest`. -/
def startsPlain (flow : Bool) (c : Char) (rest : List Char) : Bool :=
  !(isBlank c || "-?:,[]\x7b\x7d#&*!|>'\"%@`".toList.contains c) ||
    (c == '-' && !rest.head?.any isBlank) ||
    (!flow && (c == '?' || c == ':') && !startsBlank rest)

/-- Reads the next token, which begins with `c`. -/
def token (c : Char) (rest : List Char) (l : Lexer) : Option Lexer :=
  let s := l.spot
  let flow := l.inFlow
  if s.column == 0 && c == '%' then do
    let (directive, after) ← readDirective s
    match directive with
    | .version major minor => l.marginToken (.version major minor) after
    | .handle name value => l.marginToken (.handle name value) after
  else if s.atMarker then
    l.marginToken (if c == '-' then .documentStart else .documentEnd) (s.skip 3)
  else
    match c with
    | '[' => l.openFlow .flowSequence
    | '\x7b' => l.openFlow .flowMapping
    | ']' => l.closeFlow .flowSequenceEnd
    | '\x7d' => l.closeFlow .flowMappingEnd
    | ',' => l.flowEntry
    | '*' => l.keyToken fun s => (readAnchor s).map fun (name, s) => (.alias name, s)
    | '&' => l.keyToken fun s => (readAnchor s).map fun (name, s) => (.anchor name, s)
    | '!' => l.keyToken fun s => (readTag flow s).map fun (handle, rest, s) => (.tag handle rest, s)
    | '\'' => l.keyToken (quotedScalar true)
    | '"' => l.keyToken (quotedScalar false)
    | _ =>
      if c == '-' && startsBlank rest then l.blockEntry
      else if c == '?' && (flow || startsBlank rest) then l.explicitKey
      else if c == ':' && (flow || startsBlank rest) then l.mappingValue
      else if c == '|' && !flow then l.blockScalar true
      else if c == '>' && !flow then l.blockScalar false
      else if startsPlain flow c rest then l.plainScalar
      else none

def run : Nat → Lexer → Option (Array Token)
  | 0, _ => none
  | fuel + 1, l => do
    let l := l.skipGaps (l.spot.rest.length + 1)
    let l ← l.expireAll
    let l := l.unrollTo l.spot.column
    match l.spot.rest with
    | [] =>
      let l ← (l.unrollTo (-1)).dropCandidate
      pure (l.emit .streamEnd).tokens
    | c :: rest =>
      let l ← l.token c rest
      run fuel l

end Lexer

/-- The tokens of a text; nothing for a text that has none. -/
def Token.ofText (text : String) : Option (List Token) :=
  let chars := match text.toList with
    | '\ufeff' :: rest => rest
    | chars => chars
  if chars.all isAllowed then
    (Lexer.run (chars.length + 2) { spot := { rest := chars } }).map Array.toList
  else none

end ApiTypes.Yaml
