import ApiTypes.Json.Node
import ApiTypes.Json.Printer
import ApiTypes.Text.Debug

/-!
# Decoding failures

A failure says where in a value decoding stopped, by a path of keys and
indices, why, and, for a value read from text, at which byte.
-/

namespace ApiTypes
open Json (Malformed Fault Position)

/-- A step from a value to a part of it. -/
inductive Step where
  | key (k : String)
  | index (i : Nat)
  /-- To a member whose key could not be read. -/
  | unknown
deriving DecidableEq, Repr

/-- The text of a path: keys joined by points, indices in brackets, a point for
the empty path. -/
def Step.path : List Step → String
  | [] => "."
  | s :: rest => first s ++ String.join (rest.map later)
where
  /-- A step that begins the path. -/
  first : Step → String
    | .key k => k
    | .index i => "[" ++ toString i ++ "]"
    | .unknown => "?"
  /-- A step after others. -/
  later : Step → String
    | .key k => "." ++ k
    | .index i => "[" ++ toString i ++ "]"
    | .unknown => ".?"

/-- What kind of value was found. -/
inductive Found where
  | null
  | bool (b : Bool)
  | number (n : Number)
  | string (s : String)
  | sequence
  | map
deriving DecidableEq, Repr

def Found.text : Found → String
  | null => "null"
  | bool b => "boolean `" ++ (if b then "true" else "false") ++ "`"
  | number (.integer n) => "integer `" ++ toString n ++ "`"
  | number (.double x) => "floating point `" ++ (Number.double x).text ++ "`"
  | string s => "string " ++ Text.inspect s
  | sequence => "sequence"
  | map => "map"

/-- Why decoding stopped. -/
inductive Cause where
  | malformed (cause : Malformed)
  /-- A value of a kind that does not fit. -/
  | wrongType (found : Found) (expected : String)
  /-- A value of the right kind but out of range. -/
  | wrongValue (found : Found) (expected : String)
  | repeatedKey (key : String)
  | missingKey (key : String)
  | unknownChoice (name : String) (choices : List String)
  | wrongLength (n : Nat) (expected : String)
deriving DecidableEq, Repr

def Cause.message : Cause → String
  | malformed cause => cause.message
  | wrongType found expected => "invalid type: " ++ found.text ++ ", expected " ++ expected
  | wrongValue found expected => "invalid value: " ++ found.text ++ ", expected " ++ expected
  | repeatedKey key => "duplicate field `" ++ key ++ "`"
  | missingKey key => "missing field `" ++ key ++ "`"
  | unknownChoice name choices =>
    "unknown variant `" ++ name ++ "`, expected one of " ++
      Text.joinWith ", " (choices.map fun c => "`" ++ c ++ "`")
  | wrongLength n expected => "invalid length " ++ toString n ++ ", expected " ++ expected

/-- A failure: the way to it, its cause and the bytes read before it. -/
structure Failure where
  path : List Step
  cause : Cause
  offset : Nat
deriving DecidableEq, Repr

namespace Failure

/-- The failure as seen from a value of which the failing one is a part. -/
def under (step : Step) (f : Failure) : Failure := { f with path := step :: f.path }

/-- A fault of the text at the value itself. -/
def ofFault (fault : Fault) : Failure := ⟨[], .malformed fault.cause, fault.offset⟩

def message (f : Failure) : String :=
  "at JSON path " ++ Step.path f.path ++ " → " ++ f.cause.message

def messageIn (f : Failure) (text : String) : String :=
  f.message ++ (Position.of text f.offset).suffix

end Failure

/-- Marks a failure as one of the part that `step` leads to. -/
def within {α : Type} (step : Step) : Except Failure α → Except Failure α
  | .ok a => .ok a
  | .error f => .error (f.under step)

end ApiTypes
