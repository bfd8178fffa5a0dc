import ApiTypes.Text.Quoted

/-!
# Targets

A target is the notation that types are written in: one rule for each form of
type and for the declarations of a module.
-/

namespace ApiTypes

/-- The rules of one notation. -/
structure Target where
  string : String
  number : String
  boolean : String
  null : String
  /-- The type of values nothing is known of. -/
  unknown : String
  array : String → String
  union : List String → String
  intersection : List String → String
  /-- A field of an object, from its name, whether it is required, and its type. -/
  field : String → Bool → String → String
  object : List String → String
  /-- The type of the strings listed. -/
  enum : List String → String
  /-- The type declared under an identifier. -/
  reference : String → String
  nullable : String → String
  /-- The declaration of a type under an identifier. -/
  declaration : String → String → String
  /-- The declarations of a module, together. -/
  combine : List String → String
  /-- What a module begins with. -/
  header : String

namespace Target

/-- `(a|b)`, with `empty` for no members. -/
def grouped (separator empty : String) : List String → String
  | [] => empty
  | members => "(" ++ Text.joinWith separator members ++ ")"

/-- A field of a record type, a question mark after the name of an optional one. -/
def recordField (name : String) (required : Bool) (type : String) : String :=
  Text.quote name ++ (if required then "" else "?") ++ ":" ++ type

def record (fields : List String) : String := "\x7b" ++ Text.joinWith "," fields ++ "\x7d"

/-- A union of literals, with `empty` for no values. -/
def literals (empty : String) : List String → String
  | [] => empty
  | values => Text.literalUnion values

/-- Type aliases.  Targets of static types differ in what they call the types of all
values and of none, in how they write nullable types, and in what a module begins with. -/
def static (unknown never : String) (nullable : String → String) (header : String) : Target where
  string := "string"
  number := "number"
  boolean := "boolean"
  null := "null"
  unknown := unknown
  array item := "Array<" ++ item ++ ">"
  union := grouped "|" never
  intersection := grouped "&" unknown
  field := recordField
  object := record
  enum := literals never
  reference name := name
  nullable := nullable
  declaration name type := "export type " ++ name ++ "=" ++ type
  combine := Text.joinWith "\n"
  header := header

end Target

end ApiTypes
