import ApiTypes.Proofs.SchemaNodes
import ApiTypes.Schema.Shape

/-!
# The nodes of a shape

The parts of a shape are found at addresses as the nodes of a schema are.  They are the
shapes of the schemas under a single keyword, the one that decides on the kind; what
stands under the others is no part of the shape.
-/

namespace ApiTypes
open Schema (Branch Address)

def Field.shape : Field → Shape
  | .mk _ _ s => s

/-- The parts of a kind that come from the schemas under a keyword, in order. -/
def Kind.children (kind : Kind) : Keyword → List Shape
  | .allOf => match kind with
    | .allOf members => members
    | _ => []
  | .anyOf => match kind with
    | .anyOf members => members
    | _ => []
  | .oneOf => match kind with
    | .oneOf members => members
    | _ => []
  | .items => match kind with
    | .array item => [item]
    | _ => []
  | .properties => match kind with
    | .object fields => fields.map Field.shape
    | _ => []
  | .reference | .type | .required | .enum | .nullable => []

namespace Shape

def kind : Shape → Kind
  | .mk k _ => k

def child? (s : Shape) (b : Branch) : Option Shape := (s.kind.children b.keyword)[b.position]?

/-- The part of a shape at an address, if there is one. -/
def at? (s : Shape) : Address → Option Shape
  | [] => some s
  | b :: rest => (s.child? b).bind fun c => c.at? rest

theorem at?_append (s : Shape) (a b : Address) :
    s.at? (a ++ b) = (s.at? a).bind fun c => c.at? b := by
  induction a generalizing s with
  | nil => rfl
  | cons x rest ih =>
    rw [List.cons_append, at?, at?]
    cases s.child? x with
    | none => rfl
    | some c => exact ih c

theorem at?_branch (s : Shape) (b : Branch) : s.at? [b] = s.child? b := by
  rw [at?]
  cases s.child? b <;> rfl

end Shape

/-- The keyword whose schemas a shape of this variant is made of. -/
def Variant.keyword? : Variant → Option Keyword
  | allOf => some .allOf
  | anyOf => some .anyOf
  | oneOf => some .oneOf
  | array => some .items
  | object => some .properties
  | _ => none

namespace Schema
variable {n : Schema} {a : Address} {s : Shape}

/-- The keyword whose schemas become parts of the shape of a node. -/
def partKeyword? (n : Schema) : Option Keyword :=
  if 1 < n.composites.length then none else n.variant.keyword?

theorem listShapes_eq_map (schemas : List Schema) : listShapes schemas = schemas.map nodeShape := by
  induction schemas with
  | nil => rfl
  | cons s rest ih => rw [listShapes, ih, List.map_cons]

theorem map_shape_fields (required : List String) (properties : List (String × Schema)) :
    (fields required properties).map Field.shape =
      properties.map fun entry => entry.2.nodeShape := by
  induction properties with
  | nil => rfl
  | cons entry rest ih =>
    obtain ⟨name, s⟩ := entry
    rw [fields, List.map_cons, ih, List.map_cons, Field.shape]

/-- The parts of a shape come from the schemas under one keyword, all of them. -/
theorem children_nodeShape (n : Schema) (k : Keyword) :
    n.nodeShape.kind.children k =
      if n.partKeyword? = some k then (n.children k).map nodeShape else [] := by
  have hlist : ∀ o : Option (List Schema), optionListShapes o = (o.getD []).map nodeShape := by
    intro o
    cases o with
    | none => rfl
    | some schemas => exact listShapes_eq_map schemas
  have hfields : ∀ (required : List String) (o : Option (List (String × Schema))),
      (optionFields required o).map Field.shape = ((o.getD []).map Prod.snd).map nodeShape := by
    intro required o
    cases o with
    | none => rfl
    | some properties =>
      rw [optionFields, map_shape_fields, Option.getD_some, List.map_map]
      rfl
  obtain ⟨r, allOf, anyOf, oneOf, t, i, p, q, e, m, x⟩ := n
  rw [nodeShape, Shape.kind, partKeyword?]
  split
  · cases k <;> rfl
  · generalize variant _ = v
    cases v with
    | allOf => cases k <;> simp [Kind.children, Variant.keyword?, hlist, children]
    | anyOf => cases k <;> simp [Kind.children, Variant.keyword?, hlist, children]
    | oneOf => cases k <;> simp [Kind.children, Variant.keyword?, hlist, children]
    | object => cases k <;> simp [Kind.children, Variant.keyword?, hfields, children]
    | array =>
      cases i <;> cases k <;> simp [Kind.children, Variant.keyword?, optionShape, children]
    | _ => cases k <;> simp [Kind.children, Variant.keyword?]

theorem child?_nodeShape (n : Schema) (b : Branch) :
    n.nodeShape.child? b =
      if n.partKeyword? = some b.keyword then (n.child? b).map nodeShape else none := by
  rw [Shape.child?, children_nodeShape]
  split
  · rw [List.getElem?_map, child?]
  · rfl

/-- Every node of a shape is the shape of the node at its address. -/
theorem at?_nodeShape (h : n.nodeShape.at? a = some s) :
    ∃ m : Schema, n.at? a = some m ∧ m.nodeShape = s := by
  induction a generalizing n with
  | nil => exact ⟨n, rfl, Option.some.inj h⟩
  | cons b rest ih =>
    obtain ⟨c, hc, hrest⟩ := Option.bind_eq_some_iff.mp h
    rw [child?_nodeShape] at hc
    split at hc
    · obtain ⟨d, hd, rfl⟩ := Option.map_eq_some_iff.mp hc
      obtain ⟨m, hm, hshape⟩ := ih hrest
      exact ⟨m, at?_cons_eq_some_iff.mpr ⟨d, hd, hm⟩, hshape⟩
    · cases hc

end Schema

end ApiTypes
