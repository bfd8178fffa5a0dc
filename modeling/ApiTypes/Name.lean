/-!
# Names

A schema name becomes an identifier of the emitted module: every character
outside `[A-Za-z0-9_$]` is replaced by an underscore, and an underscore is put
in front when the result would be empty or start with a digit.
-/

namespace ApiTypes.Name

def isIdentifierChar (c : Char) : Bool := c.isAlphanum || c == '_' || c == '$'

/-- `c` itself where an identifier may hold it, an underscore elsewhere. -/
def sanitizeChar (c : Char) : Char := if isIdentifierChar c then c else '_'

/-- An underscore in front of an empty text and of one that starts with a digit. -/
def guardStart : List Char → List Char
  | [] => ['_']
  | c :: rest => if c.isDigit then '_' :: c :: rest else c :: rest

/-- The identifier under which the schema called `name` is declared. -/
def typeName (name : String) : String :=
  String.ofList (guardStart (name.toList.map sanitizeChar))

/-- Where the named schemas of a document live. -/
def localPrefix : List Char := "#/components/schemas/".toList

/-- The identifier a reference is written as: that of the schema it names, or,
for a reference to elsewhere, its whole text made an identifier. -/
def referenceName (reference : String) : String :=
  match localPrefix.isPrefixOf? reference.toList with
  | some rest => typeName (String.ofList rest)
  | none => typeName reference

end ApiTypes.Name
