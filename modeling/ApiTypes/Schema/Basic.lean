import ApiTypes.Json.Printer

/-!
# Schemas

A schema as it stands in a document: every keyword is optional, and all other
keys are kept in `extra` for diagnostics.  Which keywords are present decides
what a schema describes.
-/

namespace ApiTypes

/-- A schema object. -/
structure Schema where
  reference : Option String := none
  allOf : Option (List Schema) := none
  anyOf : Option (List Schema) := none
  oneOf : Option (List Schema) := none
  type : Option String := none
  items : Option Schema := none
  properties : Option (List (String × Schema)) := none
  required : Option (List String) := none
  enum : Option (List Json) := none
  nullable : Option Bool := none
  /-- The keys that are no keywords, in document order. -/
  extra : List (String × Json) := []
deriving Repr, Inhabited

/-- The keys that a schema gives a meaning to. -/
inductive Keyword where
  | reference
  | allOf
  | anyOf
  | oneOf
  | type
  | items
  | properties
  | required
  | enum
  | nullable
deriving DecidableEq, Repr

namespace Keyword

def name : Keyword → String
  | reference => "$ref"
  | allOf => "allOf"
  | anyOf => "anyOf"
  | oneOf => "oneOf"
  | type => "type"
  | items => "items"
  | properties => "properties"
  | required => "required"
  | enum => "enum"
  | nullable => "nullable"

/-- All keywords, in the order in which a schema is written. -/
def all : List Keyword :=
  [reference, allOf, anyOf, oneOf, type, items, properties, required, enum, nullable]

def ofName? (key : String) : Option Keyword := all.find? fun k => k.name == key

end Keyword

namespace Schema

def isNullable (s : Schema) : Bool := s.nullable.getD false

/-- The composite keywords that are present, in their fixed order. -/
def composites (s : Schema) : List Keyword :=
  (if s.allOf.isSome then [.allOf] else []) ++
  (if s.anyOf.isSome then [.anyOf] else []) ++
  (if s.oneOf.isSome then [.oneOf] else [])

/-- Whether a keyword is present that describes a type by itself. -/
def hasTypeKeyword (s : Schema) : Bool :=
  s.reference.isSome || s.type.isSome || s.items.isSome || s.properties.isSome ||
    s.required.isSome || s.enum.isSome

mutual

/-- Equality of schemas, keyword by keyword. -/
def decEq : (a b : Schema) → Decidable (a = b)
  | ⟨r, all, any, one, t, i, p, q, e, n, x⟩, ⟨r', all', any', one', t', i', p', q', e', n', x'⟩ =>
    have := decEqOptionList all all'
    have := decEqOptionList any any'
    have := decEqOptionList one one'
    have := decEqOption i i'
    have := decEqOptionProperties p p'
    decidable_of_iff (r = r' ∧ all = all' ∧ any = any' ∧ one = one' ∧ t = t' ∧ i = i' ∧ p = p' ∧
      q = q' ∧ e = e' ∧ n = n' ∧ x = x') (by simp)

def decEqOption : (a b : Option Schema) → Decidable (a = b)
  | none, none => isTrue rfl
  | none, some _ => isFalse nofun
  | some _, none => isFalse nofun
  | some a, some b =>
    have := decEq a b
    decidable_of_iff (a = b) (by simp)

def decEqList : (a b : List Schema) → Decidable (a = b)
  | [], [] => isTrue rfl
  | [], _ :: _ => isFalse nofun
  | _ :: _, [] => isFalse nofun
  | a :: as, b :: bs =>
    have := decEq a b
    have := decEqList as bs
    decidable_of_iff (a = b ∧ as = bs) (by simp)

def decEqOptionList : (a b : Option (List Schema)) → Decidable (a = b)
  | none, none => isTrue rfl
  | none, some _ => isFalse nofun
  | some _, none => isFalse nofun
  | some a, some b =>
    have := decEqList a b
    decidable_of_iff (a = b) (by simp)

/-- Equality of property maps, in their order. -/
def decEqProperties : (a b : List (String × Schema)) → Decidable (a = b)
  | [], [] => isTrue rfl
  | [], _ :: _ => isFalse nofun
  | _ :: _, [] => isFalse nofun
  | (k, a) :: as, (l, b) :: bs =>
    have := decEq a b
    have := decEqProperties as bs
    decidable_of_iff ((k = l ∧ a = b) ∧ as = bs) (by simp)

def decEqOptionProperties : (a b : Option (List (String × Schema))) → Decidable (a = b)
  | none, none => isTrue rfl
  | none, some _ => isFalse nofun
  | some _, none => isFalse nofun
  | some a, some b =>
    have := decEqProperties a b
    decidable_of_iff (a = b) (by simp)

end

instance : DecidableEq Schema := decEq

/-! ### As JSON -/

/-- A member that is written only where its value is present. -/
def optionalMember (key : Keyword) : Option Json → List (String × Json)
  | none => []
  | some value => [(key.name, value)]

mutual

/-- The schema as an object: its keywords in their fixed order, then the other
keys in theirs. -/
def toJson : Schema → Json
  | ⟨reference, allOf, anyOf, oneOf, type, items, properties, required, enum, nullable, extra⟩ =>
    .object (
      optionalMember .reference (reference.map .string) ++
      optionalMember .allOf (optionListToJson allOf) ++
      optionalMember .anyOf (optionListToJson anyOf) ++
      optionalMember .oneOf (optionListToJson oneOf) ++
      optionalMember .type (type.map .string) ++
      optionalMember .items (optionToJson items) ++
      optionalMember .properties (optionPropertiesToJson properties) ++
      optionalMember .required (required.map fun names => .array (names.map .string)) ++
      optionalMember .enum (enum.map .array) ++
      optionalMember .nullable (nullable.map .bool) ++
      extra)

def optionToJson : Option Schema → Option Json
  | none => none
  | some s => some s.toJson

def listToJson : List Schema → List Json
  | [] => []
  | s :: rest => s.toJson :: listToJson rest

def optionListToJson : Option (List Schema) → Option Json
  | none => none
  | some schemas => some (.array (listToJson schemas))

def propertiesToJson : List (String × Schema) → List (String × Json)
  | [] => []
  | (key, s) :: rest => (key, s.toJson) :: propertiesToJson rest

def optionPropertiesToJson : Option (List (String × Schema)) → Option Json
  | none => none
  | some properties => some (.object (propertiesToJson properties))

end

def text (s : Schema) : String := s.toJson.compact

end Schema

end ApiTypes
