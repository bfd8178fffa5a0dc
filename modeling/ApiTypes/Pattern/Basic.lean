import ApiTypes.Unicode.Digit
import ApiTypes.Unicode.Word

/-!
# Patterns

A pattern is a regular expression.  Of several ways to match at a place the
first one in the order of the alternatives counts, and a greedy repetition
prefers more rounds.
-/

namespace ApiTypes

/-- A set of characters. -/
inductive CharSet where
  | range (low high : Char)
  | none
  | any
  | digit (unicode : Bool)
  | word (unicode : Bool)
  | blank (unicode : Bool)
  | union (a b : CharSet)
  | inter (a b : CharSet)
  | negate (a : CharSet)
  /-- The characters of `a` in either case. -/
  | eitherCase (a : CharSet)

namespace CharSet

def isWord (unicode : Bool) (c : Char) : Bool :=
  if unicode then Unicode.isWord c else c.isAlphanum || c == '_'

def has : CharSet → Char → Bool
  | .range low high, c => low ≤ c && c ≤ high
  | .none, _ => false
  | .any, _ => true
  | .digit unicode, c => if unicode then Unicode.isDigit c else c.isDigit
  | .word unicode, c => isWord unicode c
  | .blank unicode, c =>
    if unicode then Unicode.isBlank c else c == ' ' || ('\t' ≤ c && c ≤ '\r')
  | .union a b, c => a.has c || b.has c
  | .inter a b, c => a.has c && b.has c
  | .negate a, c => !a.has c
  | .eitherCase a, c => a.has c || a.has c.toLower || a.has c.toUpper

end CharSet

/-- A condition on a place. -/
inductive Look where
  | textStart
  | textEnd
  | lineStart
  | lineEnd
  | wordEdge (unicode : Bool)
  | noWordEdge (unicode : Bool)
  | wordStart (unicode : Bool)
  | wordEnd (unicode : Bool)
  /-- No word character precedes. -/
  | noWordBefore (unicode : Bool)
  /-- No word character follows. -/
  | noWordAfter (unicode : Bool)

/-- A regular expression. -/
inductive Pattern where
  | empty
  | set (s : CharSet)
  | seq (a b : Pattern)
  | alt (a b : Pattern)
  /-- From `least` to `most` rounds of `a`. -/
  | rounds (a : Pattern) (least : Nat) (most : Option Nat) (greedy : Bool)
  /-- What `a` matches is remembered as group `index`. -/
  | group (index : Nat) (a : Pattern)
  | look (l : Look)

namespace Pattern

/-- A measure of the steps that a pattern takes at one place. -/
def weight : Pattern → Nat
  | .empty | .set _ | .look _ => 1
  | .seq a b | .alt a b => 1 + a.weight + b.weight
  | .rounds a least most _ => 2 + (max 1 (max least (most.getD 1))) * (a.weight + 2)
  | .group _ a => 2 + a.weight

/-- What is left to be matched. -/
inductive Task where
  | meet (p : Pattern)
  /-- Remember the group that began at `start`. -/
  | close (index start : Nat)
  /-- Further rounds after one that began at `start`. -/
  | again (p : Pattern) (least : Nat) (most : Option Nat) (greedy : Bool) (start : Nat)

/-- The groups that were matched: where each begins and ends. -/
abbrev Groups := List (Nat × Nat × Nat)

def Look.holds (text : Array Char) (place : Nat) : Look → Bool
  | .textStart => place == 0
  | .textEnd => place == text.size
  | .lineStart => place == 0 || text[place - 1]? == some '\n'
  | .lineEnd => place == text.size || text[place]? == some '\n'
  | .wordEdge unicode => before unicode != after unicode
  | .noWordEdge unicode => before unicode == after unicode
  | .wordStart unicode => !before unicode && after unicode
  | .wordEnd unicode => before unicode && !after unicode
  | .noWordBefore unicode => !before unicode
  | .noWordAfter unicode => !after unicode
where
  /-- Whether a word character precedes. -/
  before (unicode : Bool) : Bool :=
    place != 0 && (text[place - 1]?).any (CharSet.isWord unicode)
  /-- Whether a word character follows. -/
  after (unicode : Bool) : Bool := (text[place]?).any (CharSet.isWord unicode)

/-- Does the tasks from `place` on; gives where the match ends. -/
def run (text : Array Char) : Nat → List Task → Nat → Groups → Option (Nat × Groups)
  | 0, _, _, _ => none
  | _ + 1, [], place, groups => some (place, groups)
  | fuel + 1, task :: tasks, place, groups =>
    match task with
    | .meet .empty => run text fuel tasks place groups
    | .meet (.set s) =>
      match text[place]? with
      | some c => if s.has c then run text fuel tasks (place + 1) groups else none
      | none => none
    | .meet (.seq a b) => run text fuel (.meet a :: .meet b :: tasks) place groups
    | .meet (.alt a b) =>
      match run text fuel (.meet a :: tasks) place groups with
      | some r => some r
      | none => run text fuel (.meet b :: tasks) place groups
    | .meet (.group i a) => run text fuel (.meet a :: .close i place :: tasks) place groups
    | .meet (.look l) => if Look.holds text place l then run text fuel tasks place groups else none
    | .meet (.rounds a least most greedy) =>
      let round (_ : Unit) :=
        run text fuel (.meet a :: .again a (least - 1) (most.map (· - 1)) greedy place :: tasks)
          place groups
      let leave (_ : Unit) := run text fuel tasks place groups
      if 0 < least then round ()
      else if most = some 0 then leave ()
      else if greedy then
        match round () with
        | some r => some r
        | none => leave ()
      else
        match leave () with
        | some r => some r
        | none => round ()
    | .close i start => run text fuel tasks place ((i, start, place) :: groups)
    | .again a least most greedy start =>
      if place = start ∧ least = 0 then run text fuel tasks place groups
      else run text fuel (.meet (.rounds a least most greedy) :: tasks) place groups

def matchAt (p : Pattern) (text : Array Char) (place : Nat) : Option (Nat × Groups) :=
  run text ((text.size + 2) * (p.weight + 2) * 2) [.meet p] place []

/-- The first match that begins at one of the places from `place` on, the whole
match as group zero. -/
def firstFrom (p : Pattern) (text : Array Char) : Nat → Nat → Option Groups
  | 0, _ => none
  | fuel + 1, place =>
    if text.size < place then none
    else
      match p.matchAt text place with
      | some (stop, groups) => some ((0, place, stop) :: groups)
      | none => firstFrom p text fuel (place + 1)

/-- The first match in a text, from `place` on. -/
def find? (p : Pattern) (text : Array Char) (place : Nat) : Option Groups :=
  p.firstFrom text (text.size + 1) place

def isIn (p : Pattern) (text : String) : Bool := (p.find? text.toList.toArray 0).isSome

end Pattern

end ApiTypes
