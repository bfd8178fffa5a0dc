import ApiTypes.Target.Basic

/-!
# Codecs

Values of the `io-ts` module, which check data when they are run.  Combinators
want two members at least: a single member stands for itself, and no members
for the type of no values (a union) or of all values (an intersection).  An
optional field is one that may be undefined.
-/

namespace ApiTypes.Target

/-- `t.name([a,b])`, a single member by itself, and `empty` for no members. -/
def combinator (name empty : String) : List String → String
  | [] => empty
  | [member] => member
  | members => "t." ++ name ++ "([" ++ Text.joinWith "," members ++ "])"

def codecField (name : String) (required : Bool) (type : String) : String :=
  if required then Text.quote name ++ ":" ++ type
  else Text.quote name ++ ":t.union([" ++ type ++ ",t.undefined])"

def keyOf : List String → String
  | [] => "t.never"
  | values =>
    "t.keyof(" ++ record (values.map fun v => Text.quote v ++ ":null") ++ ")"

/-- Codecs of the `io-ts` module. -/
def codec : Target where
  string := "t.string"
  number := "t.number"
  boolean := "t.boolean"
  null := "t.null"
  unknown := "t.unknown"
  array item := "t.array(" ++ item ++ ")"
  union := combinator "union" "t.never"
  intersection := combinator "intersection" "t.unknown"
  field := codecField
  object fields := "t.type(" ++ record fields ++ ")"
  enum := keyOf
  reference name := name
  nullable type := "t.union([" ++ type ++ ",t.null])"
  declaration name type := "export const " ++ name ++ "=" ++ type
  combine := Text.joinWith ";\n"
  header := "import * as t from 'io-ts'\n"

end ApiTypes.Target
