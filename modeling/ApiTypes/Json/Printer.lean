import ApiTypes.Json.Basic
import ApiTypes.Text.Quoted

/-!
# Compact JSON text

`Json.compact` writes a value without blanks and with its members in order.
-/

namespace ApiTypes
open Decimal (Layout)

/-- The text of a number; a double that is not finite has none of its own and
is written `null`. -/
def Number.text : Number → String
  | .integer n => toString n
  | .double x => if x.isFinite then Layout.json.text x else "null"

namespace Json

mutual

def compact : Json → String
  | .null => "null"
  | .bool true => "true"
  | .bool false => "false"
  | .number n => n.text
  | .string s => Text.quote s
  | .array items => "[" ++ Text.joinWith "," (compactItems items) ++ "]"
  | .object members => "\x7b" ++ Text.joinWith "," (compactMembers members) ++ "\x7d"

def compactItems : List Json → List String
  | [] => []
  | item :: rest => compact item :: compactItems rest

/-- The texts of the members, key and value separated by a colon. -/
def compactMembers : List (String × Json) → List String
  | [] => []
  | (key, value) :: rest => (Text.quote key ++ ":" ++ compact value) :: compactMembers rest

end

end Json

end ApiTypes
