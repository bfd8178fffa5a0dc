import ApiTypes.Generation
import ApiTypes.Name
import ApiTypes.Shape
import ApiTypes.Target.Basic

/-!
# From shapes to types

A shape is written as a type of a target, depth first and left to right; the
first part that cannot be written fails the whole.
-/

namespace ApiTypes

/-- The rules of writing: the target, and whether a shape without a known
type is a failure. -/
structure TypeWriter where
  target : Target
  strict : Bool

namespace TypeWriter

mutual

def shape (w : TypeWriter) : Shape → Except GenerationError String
  | .mk k nullable => do
    let type ← kind w k
    pure (if nullable then w.target.nullable type else type)

def kind (w : TypeWriter) : Kind → Except GenerationError String
  | .reference path => .ok (w.target.reference (Name.referenceName path))
  | .allOf members => (shapes w members).map w.target.intersection
  | .anyOf members => (shapes w members).map w.target.union
  | .oneOf members => (shapes w members).map w.target.union
  | .array item => (shape w item).map w.target.array
  | .object members => (fields w members).map w.target.object
  | .enum values => .ok (w.target.enum values)
  | .number => .ok w.target.number
  | .string => .ok w.target.string
  | .boolean => .ok w.target.boolean
  | .integer => .ok w.target.number
  | .null => .ok w.target.null
  | .unrecognized source =>
    if w.strict then .error (.invalidType source) else .ok w.target.unknown
  | .conflicting keywords source => .error (.conflictingComposites keywords source)

def shapes (w : TypeWriter) : List Shape → Except GenerationError (List String)
  | [] => .ok []
  | s :: rest => do
    let type ← shape w s
    let types ← shapes w rest
    pure (type :: types)

/-- The fields of an object, in order. -/
def fields (w : TypeWriter) : List Field → Except GenerationError (List String)
  | [] => .ok []
  | .mk name required s :: rest => do
    let type ← shape w s
    let types ← fields w rest
    pure (w.target.field name required type :: types)

end

end TypeWriter

end ApiTypes
