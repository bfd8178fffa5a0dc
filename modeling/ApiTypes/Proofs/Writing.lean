import ApiTypes.Proofs.Outcome
import ApiTypes.TypeWriter

/-!
# What is written, and when writing fails

`Target.written` is the type of a shape with every shape of unknown or
contradictory form written as the unknown type, and `Shape.nodes` are the nodes
of a shape, depth first and left to right.  A type writer gives the first fault
of these nodes, and the written type where they have none.
-/

namespace ApiTypes

/-! ### Nodes and their faults -/

mutual

/-- The kinds of a shape and of its parts, depth first and left to right. -/
def Shape.nodes : Shape → List Kind
  | .mk k _ => k :: Kind.inner k

def Kind.inner : Kind → List Kind
  | .allOf members => Shape.listNodes members
  | .anyOf members => Shape.listNodes members
  | .oneOf members => Shape.listNodes members
  | .array item => Shape.nodes item
  | .object fields => Field.listNodes fields
  | .reference _ => []
  | .enum _ => []
  | .number => []
  | .string => []
  | .boolean => []
  | .integer => []
  | .null => []
  | .unrecognized _ => []
  | .conflicting _ _ => []

def Shape.listNodes : List Shape → List Kind
  | [] => []
  | s :: rest => Shape.nodes s ++ Shape.listNodes rest

def Field.listNodes : List Field → List Kind
  | [] => []
  | .mk _ _ s :: rest => Shape.nodes s ++ Field.listNodes rest

end

/-- The failure of a node by itself. -/
def Kind.fault? (strict : Bool) : Kind → Option GenerationError
  | .unrecognized source => if strict then some (.invalidType source) else none
  | .conflicting keywords source => some (.conflictingComposites keywords source)
  | _ => none

def firstFault (strict : Bool) (nodes : List Kind) : Option GenerationError :=
  nodes.findSome? (Kind.fault? strict)

theorem firstFault_append (strict : Bool) (a b : List Kind) :
    firstFault strict (a ++ b) = (firstFault strict a).or (firstFault strict b) :=
  List.findSome?_append

/-! ### The written type -/

namespace Target

mutual

/-- The type of a shape, with the unknown type in place of faults. -/
def written (t : Target) : Shape → String
  | .mk k nullable => if nullable then t.nullable (t.writtenKind k) else t.writtenKind k

def writtenKind (t : Target) : Kind → String
  | .reference path => t.reference (Name.referenceName path)
  | .allOf members => t.intersection (t.writtenList members)
  | .anyOf members => t.union (t.writtenList members)
  | .oneOf members => t.union (t.writtenList members)
  | .array item => t.array (t.written item)
  | .object fields => t.object (t.writtenFields fields)
  | .enum values => t.enum values
  | .number => t.number
  | .string => t.string
  | .boolean => t.boolean
  | .integer => t.number
  | .null => t.null
  | .unrecognized _ => t.unknown
  | .conflicting _ _ => t.unknown

def writtenList (t : Target) : List Shape → List String
  | [] => []
  | s :: rest => t.written s :: t.writtenList rest

def writtenFields (t : Target) : List Field → List String
  | [] => []
  | .mk name required s :: rest => t.field name required (t.written s) :: t.writtenFields rest

end

end Target

/-! ### The result of writing -/

namespace TypeWriter
variable (w : TypeWriter)

mutual

theorem shape_eq : ∀ s : Shape,
    w.shape s = unlessFault (firstFault w.strict s.nodes) (w.target.written s)
  | .mk k nullable => by
    have hk := kind_eq k
    rw [shape, hk, Shape.nodes, Target.written]
    exact bind_unlessFault _ _ fun type => if nullable then w.target.nullable type else type

theorem kind_eq : ∀ k : Kind,
    w.kind k = unlessFault (firstFault w.strict (k :: k.inner)) (w.target.writtenKind k)
  | .reference path => rfl
  | .allOf members => by
    rw [kind, shapes_eq members, map_unlessFault]
    rfl
  | .anyOf members => by
    rw [kind, shapes_eq members, map_unlessFault]
    rfl
  | .oneOf members => by
    rw [kind, shapes_eq members, map_unlessFault]
    rfl
  | .array item => by
    rw [kind, shape_eq item, map_unlessFault]
    rfl
  | .object fields => by
    rw [kind, fields_eq fields, map_unlessFault]
    rfl
  | .enum values => rfl
  | .number => rfl
  | .string => rfl
  | .boolean => rfl
  | .integer => rfl
  | .null => rfl
  | .unrecognized source => by
    cases hstrict : w.strict <;> simp [kind, hstrict, firstFault, Kind.fault?, Kind.inner,
      unlessFault, Target.writtenKind]
  | .conflicting keywords source => rfl

theorem shapes_eq : ∀ members : List Shape,
    w.shapes members =
      unlessFault (firstFault w.strict (Shape.listNodes members)) (w.target.writtenList members)
  | [] => rfl
  | s :: rest => by
    rw [shapes, shape_eq s, shapes_eq rest, Shape.listNodes, firstFault_append]
    exact bind_unlessFault₂ _ _ _ _ List.cons

theorem fields_eq : ∀ members : List Field,
    w.fields members =
      unlessFault (firstFault w.strict (Field.listNodes members)) (w.target.writtenFields members)
  | [] => rfl
  | .mk name required s :: rest => by
    rw [fields, shape_eq s, fields_eq rest, Field.listNodes, firstFault_append]
    exact bind_unlessFault₂ _ _ _ _ fun type types => w.target.field name required type :: types

end

end TypeWriter

end ApiTypes
