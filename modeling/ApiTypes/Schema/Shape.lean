import ApiTypes.Schema.Normal
import ApiTypes.Shape

/-!
# From schemas to shapes

A schema is normalized as a whole, and every node of the normal form becomes a
shape.  This never fails: a node of unknown or contradictory form becomes a
shape that says so.
-/

namespace ApiTypes

namespace Schema

/-- The names of the composite keywords that are present, separated by commas. -/
def compositeNames (s : Schema) : String :=
  Text.joinWith ", " (s.composites.map Keyword.name)

mutual

def nodeShape : Schema → Shape
  | ⟨reference, allOf, anyOf, oneOf, type, items, properties, required, enum, nullable, extra⟩ =>
    let s : Schema :=
      ⟨reference, allOf, anyOf, oneOf, type, items, properties, required, enum, nullable, extra⟩
    let kind : Kind :=
      if 1 < s.composites.length then .conflicting s.compositeNames s.text
      else
        match s.variant with
        | .reference => .reference (reference.getD "")
        | .allOf => .allOf (optionListShapes allOf)
        | .anyOf => .anyOf (optionListShapes anyOf)
        | .oneOf => .oneOf (optionListShapes oneOf)
        | .array =>
          match optionShape items with
          | some item => .array item
          | none => .unrecognized s.text
        | .object => .object (optionFields (required.getD []) properties)
        | .enum => .enum ((enum.getD []).filterMap Json.asString?)
        | .number => .number
        | .string => .string
        | .boolean => .boolean
        | .integer => .integer
        | .null => .null
        | .unrecognized => .unrecognized s.text
    .mk kind s.isNullable

def optionShape : Option Schema → Option Shape
  | none => none
  | some s => some s.nodeShape

def listShapes : List Schema → List Shape
  | [] => []
  | s :: rest => s.nodeShape :: listShapes rest

def optionListShapes : Option (List Schema) → List Shape
  | none => []
  | some schemas => listShapes schemas

/-- The fields of an object, in order; those named in `required` are required. -/
def fields (required : List String) : List (String × Schema) → List Field
  | [] => []
  | (name, s) :: rest => .mk name (required.contains name) s.nodeShape :: fields required rest

def optionFields (required : List String) : Option (List (String × Schema)) → List Field
  | none => []
  | some properties => fields required properties

end

def shape (s : Schema) : Shape := s.normalize.nodeShape

end Schema

end ApiTypes
