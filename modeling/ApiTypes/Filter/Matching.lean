import ApiTypes.Filter.Results
import ApiTypes.Pattern.Reader

/-!
# Patterns in the filter language

A pattern is matched against a string under flags: `g` asks for all matches,
`n` passes over empty ones.  A match is an array of its groups, the whole match
first; a group that took no part is left out.
-/

namespace ApiTypes.Filter.Matching

/-- How a string is searched. -/
structure Search where
  all : Bool := false
  noEmpty : Bool := false
  /-- How the pattern is read. -/
  flags : Pattern.Flags := { unicode := false }

def Search.with? (s : Search) : Char → Option Search
  | 'g' => some { s with all := true }
  | 'n' => some { s with noEmpty := true }
  | 'i' => some { s with flags := { s.flags with ignoreCase := true } }
  | 'x' => some { s with flags := { s.flags with ignoreBlanks := true } }
  | 's' => some { s with flags := { s.flags with dotAll := true } }
  | 'l' => some { s with flags := { s.flags with swapGreed := true } }
  | 'p' => some { s with noEmpty := true, flags := { s.flags with dotAll := true } }
  | _ => none

def Search.ofText? (letters : String) : Option Search :=
  letters.toList.foldlM Search.with? {}

/-- The matches from `place` on, in order; none is empty where one has just ended. -/
def matchesFrom (p : Pattern) (text : Array Char) : Nat → (place : Nat) → (ended : Option Nat) →
    List Pattern.Groups
  | 0, _, _ => []
  | fuel + 1, place, ended =>
    match p.find? text place with
    | none => []
    | some groups =>
      match groups.find? (fun g => g.1 = 0) with
      | none => []
      | some (_, start, stop) =>
        if start = stop then
          if ended = some stop then matchesFrom p text fuel (stop + 1) ended
          else groups :: matchesFrom p text fuel (stop + 1) (some stop)
        else groups :: matchesFrom p text fuel stop (some stop)

def piece (text : Array Char) (start stop : Nat) : String :=
  String.ofList ((text.toList.drop start).take (stop - start))

def groupValue (text : Array Char) (start stop : Nat) (name : Option String) : Value :=
  .object ([("offset", .integer start), ("length", .integer (stop - start : Nat)),
    ("string", .string (piece text start stop))] ++
    (name.map fun n => ("name", Value.string n)).toList)

/-- The groups of a match, from `index` on. -/
def groupValues (text : Array Char) (groups : Pattern.Groups) :
    (index : Nat) → List (Option String) → List Value
  | _, [] => []
  | index, name :: names =>
    let rest := groupValues text groups (index + 1) names
    match groups.find? (fun g => g.1 = index) with
    | some (_, start, stop) => groupValue text start stop name :: rest
    | none => rest

/-- A match and where it stands. -/
structure Found where
  start : Nat
  stop : Nat
  groups : Value

/-- The matches of a pattern in a string; nothing if the pattern or the flags are
not well formed. -/
def matches? (text : Array Char) (pattern letters : String) : Option (List Found) := do
  let search ← Search.ofText? letters
  let compiled ← Pattern.read? search.flags pattern
  let found := (matchesFrom compiled.pattern text (2 * text.size + 2) 0 none).filterMap
    fun groups =>
      (groups.find? (fun g => g.1 = 0)).map fun (_, start, stop) =>
        ⟨start, stop, .array (groupValues text groups 0 (none :: compiled.names))⟩
  let found := if search.noEmpty then found.filter (fun m => m.start ≠ m.stop) else found
  pure (if search.all then found else found.take 1)

/-- The pieces of the text between the matches, from `place` on, with the matches
between them. -/
def alternate (text : Array Char) : (place : Nat) → List Found → List (Value × Option Value)
  | place, [] => [(.string (piece text place text.size), none)]
  | place, m :: rest =>
    (.string (piece text place m.start), some m.groups) :: alternate text m.stop rest

end ApiTypes.Filter.Matching
