import ApiTypes.Filter.Evaluation

/-!
# Filtering documents

A filter is a program that makes values of a document.  To change a document it
has to give exactly one.
-/

namespace ApiTypes

/-- Why a filter cannot be applied. -/
inductive FilterError where
  /-- The filter is not well formed. -/
  | malformed
  /-- The filter uses names that nobody defines. -/
  | undefined (names : List Filter.Ident)
  /-- An exception interrupted the filter. -/
  | interrupted
  /-- The filter gave another number of values than one. -/
  | wrongCount (source : String) (count : Nat)
deriving DecidableEq, Repr

namespace FilterError

/-- The text of an error; most have none. -/
def message : FilterError → String
  | .wrongCount source count =>
    "jq expression `" ++ source ++ "` produced " ++ toString count ++
      " values, expected exactly one document"
  | _ => ""

end FilterError

namespace Filter

/-- How many steps a filter may take one inside the other. -/
def fuel : Nat := 1000000

/-- The names that filters may use. -/
def known : List Ident :=
  Env.library.idents ++ Native.table.map fun n => .filter n.1 n.2.1

/-- Reads a filter whose names are all known. -/
def read (source : String) : Except FilterError Term :=
  match Term.ofText? source with
  | none => .error .malformed
  | some t =>
    match t.undefined known with
    | [] => .ok t
    | names => .error (.undefined names)

def Value.toJson (v : Value) : Except FilterError Json :=
  match Json.parse v.text with
  | .ok j => .ok j
  | .error _ => .error .interrupted

def outputs (source : String) (document : Json) : Except FilterError (List Json) := do
  let t ← read source
  match (run fuel Env.library t (Value.ofJson document)).toList with
  | .ok values => values.mapM Value.toJson
  | .error _ => .error .interrupted

def apply (source : String) (document : Json) : Except FilterError Json := do
  match ← outputs source document with
  | [result] => pure result
  | results => .error (.wrongCount source results.length)

end Filter

end ApiTypes
