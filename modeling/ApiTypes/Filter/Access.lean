import ApiTypes.Filter.Results

/-!
# Parts of values

A part of a value is an item under an index, a member under a key, a slice of
an array or of a string, or each item and member.  A part can be looked up and
it can be changed: a change is a filter, and a part for which it gives no result
is removed.
-/

namespace ApiTypes.Filter

/-- Which parts are meant. -/
inductive Part where
  | at (key : Value)
  | slice (low high : Option Value)
  | each

/-- A step to parts; where it is optional a failure counts as no result. -/
structure Step where
  part : Part
  optional : Bool

namespace Part

/-- The index counted from the front; a negative one counts from the end. -/
def absolute (i : Int) (length : Nat) : Option Nat :=
  if 0 ≤ i then some i.toNat
  else if i.natAbs ≤ length then some (length - i.natAbs) else none

def bound? : Option Value → Except Exception (Option Int)
  | none => .ok none
  | some (.integer n) => .ok (some n)
  | some v => .error (.kind v "integer")

/-- Where a slice of this many things begins and how many it takes. -/
def extent (low high : Option Value) (length : Nat) : Except Exception (Nat × Nat) := do
  let low ← bound? low
  let high ← bound? high
  let place (b : Option Int) (absent : Nat) : Nat :=
    match b with
    | none => absent
    | some i => min ((absolute i length).getD 0) length
  let start := place low 0
  pure (start, place high length - start)

/-- The item at an index, with the index counted from the front. -/
def item? (i : Int) (items : List Value) : Option (Nat × Value) :=
  (absolute i items.length).bind fun k => (items[k]?).map (k, ·)

/-- The part of a value under a key or an index. -/
def lookup (v key : Value) : Except Exception Value :=
  match v, key with
  | .array items, .integer i =>
    .ok (((item? i items).map (·.2)).getD .null)
  | .object members, .string k => .ok ((Members.find? members k).getD .null)
  | .array _, _ | .object _, _ => .error (.access v key)
  | _, _ => .error (.kind v "iterable (array or object)")

def cut (v : Value) (low high : Option Value) : Except Exception Value :=
  match v with
  | .array items => do
    let (start, count) ← extent low high items.length
    pure (.array ((items.drop start).take count))
  | .string s => do
    let (start, count) ← extent low high s.length
    pure (.string (String.ofList ((s.toList.drop start).take count)))
  | _ => .error (.kind v "rangeable (array or string)")

def all (v : Value) : Results :=
  match v with
  | .array items => .ofList items
  | .object members => .ofList (members.map (·.2))
  | _ => .fail (.kind v "iterable (array or object)")

def get (v : Value) : Part → Results
  | .at key => .ofExcept (lookup v key)
  | .slice low high => .ofExcept (cut v low high)
  | .each => all v

/-! ### Changing parts -/

def changed (change : Value → Results) (v : Value) : Except Exception (Option Value) :=
  match (change v).first? with
  | none => .ok none
  | some r => r.map some

/-- Removes a member; the last member takes its place. -/
def removeMember (key : String) (members : List (String × Value)) : List (String × Value) :=
  match members.getLast? with
  | none => []
  | some last =>
    if last.1 = key then members.dropLast
    else members.dropLast.map fun m => if m.1 = key then last else m

/-- Changes the member under a key; one that is missing counts as `null`. -/
def changeMember (change : Value → Results) (key : String) (members : List (String × Value)) :
    Except Exception (List (String × Value)) := do
  match Members.find? members key with
  | some old =>
    match ← changed change old with
    | some new => pure (Members.insert key new members)
    | none => pure (removeMember key members)
  | none =>
    match ← changed change .null with
    | some new => pure (members ++ [(key, new)])
    | none => pure members

def changeItem (change : Value → Results) (k : Nat) (old : Value) (items : List Value) :
    Except Exception (List Value) := do
  match ← changed change old with
  | some new => pure (items.set k new)
  | none => pure (items.eraseIdx k)

/-- Changes a slice; the change must give an array. -/
def changeSlice (change : Value → Results) (start count : Nat) (items : List Value) :
    Except Exception (List Value) := do
  let new ← match ← changed change (.array ((items.drop start).take count)) with
    | none => pure []
    | some (.array new) => pure new
    | some v => throw (.kind v "array")
  pure (items.take start ++ new ++ items.drop (start + count))

/-- Changes each member; members without a result are dropped. -/
def changeMembers (change : Value → Results) :
    List (String × Value) → Except Exception (List (String × Value))
  | [] => .ok []
  | (key, old) :: rest => do
    let new ← changed change old
    let rest ← changeMembers change rest
    pure ((new.map fun v => (key, v)).toList ++ rest)

/-- Changes parts of a value.  With `optional` a value that has no such parts
stays as it is. -/
def modify (change : Value → Results) (optional : Bool) (v : Value) :
    Part → Except Exception Value
  | .at key =>
    match v, key with
    | .object members, .string k => (changeMember change k members).map .object
    | .object _, _ => refuse (.access v key)
    | .array items, .integer i =>
      match item? i items with
      | some (k, old) => (changeItem change k old items).map .array
      | none => refuse (.text ("index " ++ toString i ++ " out of bounds"))
    | .array _, _ => refuse (.kind key "integer")
    | _, _ => refuse (.kind v "iterable (array or object)")
  | .slice low high =>
    match v with
    | .array items =>
      match extent low high items.length with
      | .ok (start, count) => (changeSlice change start count items).map .array
      | .error e => refuse e
    | _ => refuse (.kind v "array")
  | .each =>
    match v with
    | .array items => ((Stream.ofList items).bind change).toList.map .array
    | .object members => (changeMembers change members).map .object
    | _ => refuse (.kind v "iterable (array or object)")
where
  /-- A failure, unless it is forgiven. -/
  refuse (e : Exception) : Except Exception Value := if optional then .ok v else .error e

end Part

/-! ### Steps -/

namespace Step

def follow : List Step → Value → Results
  | [], v => .one v
  | s :: rest, v =>
    let parts := s.part.get v
    let parts := if s.optional then parts.filter Except.isOk else parts
    parts.bind (follow rest)

def change (f : Value → Results) : List Step → Value → Results
  | [], v => f v
  | s :: rest, v => .ofExcept (s.part.modify (change f rest) s.optional v)

end Step

end ApiTypes.Filter
