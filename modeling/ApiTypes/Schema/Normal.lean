import ApiTypes.Schema.Basic

/-!
# The normal form of schemas

A composite keyword may stand beside keywords that describe a type themselves.
`normalize` moves these into a further member at the end of the composite's
list, so that a node is either a composite or described by its own keywords.
A node with several composite keywords is left as it is; its children are
normalized all the same.  `variant` then names the first shape whose keywords
are present.
-/

namespace ApiTypes

/-- The shapes of a schema, in the order in which they are tried. -/
inductive Variant where
  | reference
  | allOf
  | anyOf
  | oneOf
  | array
  | object
  | enum
  | number
  | string
  | boolean
  | integer
  | null
  | unrecognized
deriving DecidableEq, Repr

namespace Schema

/-- The keywords that describe a type by themselves, alone. -/
def typePart (s : Schema) : Schema :=
  { reference := s.reference, type := s.type, items := s.items, properties := s.properties,
    required := s.required, enum := s.enum }

/-- The schema without the keywords that describe a type by themselves. -/
def withoutTypePart (s : Schema) : Schema :=
  { s with reference := none, type := none, items := none, properties := none,
           required := none, enum := none }

/-- Adds a member at the end of the first composite that is present. -/
def appendMember (s : Schema) (member : Schema) : Schema :=
  match s.allOf, s.anyOf, s.oneOf with
  | some members, _, _ => { s with allOf := some (members ++ [member]) }
  | none, some members, _ => { s with anyOf := some (members ++ [member]) }
  | none, none, some members => { s with oneOf := some (members ++ [member]) }
  | none, none, none => s

/-- Moves the type keywords of one node into its only composite. -/
def settle (s : Schema) : Schema :=
  if s.composites.length = 1 ∧ s.hasTypeKeyword then
    s.withoutTypePart.appendMember s.typePart
  else s

mutual

/-- The normal form of a schema; children come first. -/
def normalize : Schema → Schema
  | ⟨reference, allOf, anyOf, oneOf, type, items, properties, required, enum, nullable, extra⟩ =>
    settle ⟨reference, normalizeOptionList allOf, normalizeOptionList anyOf,
      normalizeOptionList oneOf, type, normalizeOption items, normalizeOptionProperties properties,
      required, enum, nullable, extra⟩

def normalizeOption : Option Schema → Option Schema
  | none => none
  | some s => some s.normalize

def normalizeList : List Schema → List Schema
  | [] => []
  | s :: rest => s.normalize :: normalizeList rest

def normalizeOptionList : Option (List Schema) → Option (List Schema)
  | none => none
  | some schemas => some (normalizeList schemas)

def normalizeProperties : List (String × Schema) → List (String × Schema)
  | [] => []
  | (key, s) :: rest => (key, s.normalize) :: normalizeProperties rest

def normalizeOptionProperties : Option (List (String × Schema)) → Option (List (String × Schema))
  | none => none
  | some properties => some (normalizeProperties properties)

end

/-! ### Variants -/

def typeAdmits (s : Schema) (name : String) : Bool := s.type.all (· == name)

def typeIs (s : Schema) (name : String) : Bool := s.type == some name

def isStringEnum (s : Schema) : Bool :=
  match s.enum with
  | some values => s.typeAdmits "string" && values.all Json.isString
  | none => false

/-- The first shape whose keywords are present. -/
def variant (s : Schema) : Variant :=
  if s.reference.isSome then .reference
  else if s.allOf.isSome then .allOf
  else if s.anyOf.isSome then .anyOf
  else if s.oneOf.isSome then .oneOf
  else if s.items.isSome && s.typeAdmits "array" then .array
  else if s.properties.isSome && s.typeAdmits "object" then .object
  else if s.isStringEnum then .enum
  else if s.typeIs "number" then .number
  else if s.typeIs "string" then .string
  else if s.typeIs "boolean" then .boolean
  else if s.typeIs "integer" then .integer
  else if s.typeIs "null" then .null
  else .unrecognized

end Schema

end ApiTypes
