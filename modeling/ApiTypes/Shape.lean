/-!
# Shapes

A shape is what a schema describes, told apart once and for all: exactly one
kind, and whether `null` is admitted besides.
-/

namespace ApiTypes

mutual

/-- A kind, and whether `null` is admitted besides. -/
inductive Shape where
  | mk (kind : Kind) (nullable : Bool)

/-- What a schema describes. -/
inductive Kind where
  /-- The schema that `path` names. -/
  | reference (path : String)
  | allOf (members : List Shape)
  | anyOf (members : List Shape)
  | oneOf (members : List Shape)
  | array (item : Shape)
  | object (fields : List Field)
  | enum (values : List String)
  | number
  | string
  | boolean
  | integer
  | null
  /-- A schema no type is known for, as its JSON text. -/
  | unrecognized (source : String)
  /-- A schema with several composite keywords, and its JSON text. -/
  | conflicting (keywords : String) (source : String)

/-- A named part of an object. -/
inductive Field where
  | mk (name : String) (required : Bool) (shape : Shape)

end

instance : Inhabited Shape := ⟨.mk .null false⟩

/-- Named shapes, in document order. -/
abbrev Definitions := List (String × Shape)

end ApiTypes
