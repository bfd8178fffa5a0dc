import ApiTypes.Proofs.SchemaRewriting
import ApiTypes.Proofs.Writing
import ApiTypes.Schema.Shape

/-!
# Schemas without annotations

`Schema.plain` leaves away all keys that are no keywords, at every node, and a
`nullable` that is not true.  Normalizing commutes with it, and the shape of a
schema is the shape of its plain form but for the texts that diagnostics quote:
both have the same outline.
-/

namespace ApiTypes

namespace Schema

mutual

/-- The schema without annotations at any node. -/
def plain : Schema → Schema
  | ⟨reference, allOf, anyOf, oneOf, type, items, properties, required, enum, nullable, _⟩ =>
    ⟨reference, plainOptionList allOf, plainOptionList anyOf, plainOptionList oneOf, type,
      plainOption items, plainOptionProperties properties, required, enum, nullable.filter id, []⟩

def plainOption : Option Schema → Option Schema
  | none => none
  | some s => some s.plain

def plainList : List Schema → List Schema
  | [] => []
  | s :: rest => s.plain :: plainList rest

def plainOptionList : Option (List Schema) → Option (List Schema)
  | none => none
  | some schemas => some (plainList schemas)

def plainProperties : List (String × Schema) → List (String × Schema)
  | [] => []
  | (key, s) :: rest => (key, s.plain) :: plainProperties rest

def plainOptionProperties : Option (List (String × Schema)) → Option (List (String × Schema))
  | none => none
  | some properties => some (plainProperties properties)

end

theorem plainList_eq_map (schemas : List Schema) : plainList schemas = schemas.map plain := by
  induction schemas with
  | nil => rfl
  | cons s rest ih => rw [plainList, ih, List.map_cons]

theorem plainProperties_eq_map (properties : List (String × Schema)) :
    plainProperties properties = properties.map fun entry => (entry.1, entry.2.plain) := by
  induction properties with
  | nil => rfl
  | cons entry rest ih => rw [plainProperties, ih, List.map_cons]

/-! ### Normal forms -/

theorem composites_plain (s : Schema) : s.plain.composites = s.composites := by
  obtain ⟨r, allOf, anyOf, oneOf, t, i, p, q, e, n, x⟩ := s
  cases allOf <;> cases anyOf <;> cases oneOf <;> rfl

theorem hasTypeKeyword_plain (s : Schema) : s.plain.hasTypeKeyword = s.hasTypeKeyword := by
  obtain ⟨r, allOf, anyOf, oneOf, t, i, p, q, e, n, x⟩ := s
  cases i <;> cases p <;> rfl

theorem plain_typePart (s : Schema) : s.typePart.plain = s.plain.typePart := by
  obtain ⟨r, allOf, anyOf, oneOf, t, i, p, q, e, n, x⟩ := s
  rfl

theorem plain_withoutTypePart (s : Schema) :
    s.withoutTypePart.plain = s.plain.withoutTypePart := by
  obtain ⟨r, allOf, anyOf, oneOf, t, i, p, q, e, n, x⟩ := s
  rfl

theorem plain_appendMember (s member : Schema) :
    (s.appendMember member).plain = s.plain.appendMember member.plain := by
  have happend : ∀ members : List Schema,
      plainList (members ++ [member]) = plainList members ++ [member.plain] := by
    intro members
    rw [plainList_eq_map, plainList_eq_map, List.map_append, List.map_singleton]
  obtain ⟨r, allOf, anyOf, oneOf, t, i, p, q, e, n, x⟩ := s
  cases allOf <;> cases anyOf <;> cases oneOf <;>
    simp only [appendMember, plain, plainOptionList, happend]

theorem plain_settle (s : Schema) : s.settle.plain = s.plain.settle := by
  rw [settle, settle, composites_plain, hasTypeKeyword_plain]
  split
  · rw [plain_appendMember, plain_withoutTypePart, plain_typePart]
  · rfl

mutual

theorem plain_normalize : ∀ s : Schema, s.normalize.plain = s.plain.normalize
  | ⟨reference, allOf, anyOf, oneOf, type, items, properties, required, enum, nullable, extra⟩ => by
    rw [normalize, plain_settle, plain, plain, normalize, plain_normalizeOptionList allOf,
      plain_normalizeOptionList anyOf, plain_normalizeOptionList oneOf,
      plain_normalizeOption items, plain_normalizeOptionProperties properties]

theorem plain_normalizeOption : ∀ s : Option Schema,
    plainOption (normalizeOption s) = normalizeOption (plainOption s)
  | none => rfl
  | some s => congrArg some (plain_normalize s)

theorem plain_normalizeList : ∀ schemas : List Schema,
    plainList (normalizeList schemas) = normalizeList (plainList schemas)
  | [] => rfl
  | s :: rest => by
    rw [normalizeList, plainList, plainList, normalizeList, plain_normalize s,
      plain_normalizeList rest]

theorem plain_normalizeOptionList : ∀ schemas : Option (List Schema),
    plainOptionList (normalizeOptionList schemas) = normalizeOptionList (plainOptionList schemas)
  | none => rfl
  | some schemas => congrArg some (plain_normalizeList schemas)

theorem plain_normalizeProperties : ∀ properties : List (String × Schema),
    plainProperties (normalizeProperties properties) =
      normalizeProperties (plainProperties properties)
  | [] => rfl
  | (key, s) :: rest => by
    rw [normalizeProperties, plainProperties, plainProperties, normalizeProperties,
      plain_normalize s, plain_normalizeProperties rest]

theorem plain_normalizeOptionProperties : ∀ properties : Option (List (String × Schema)),
    plainOptionProperties (normalizeOptionProperties properties) =
      normalizeOptionProperties (plainOptionProperties properties)
  | none => rfl
  | some properties => congrArg some (plain_normalizeProperties properties)

end

end Schema

/-! ### Outlines -/

mutual

/-- The shape without the texts that diagnostics quote. -/
def Shape.outline : Shape → Shape
  | .mk k nullable => .mk (Kind.outline k) nullable

def Kind.outline : Kind → Kind
  | .reference path => .reference path
  | .allOf members => .allOf (Shape.listOutline members)
  | .anyOf members => .anyOf (Shape.listOutline members)
  | .oneOf members => .oneOf (Shape.listOutline members)
  | .array item => .array (Shape.outline item)
  | .object fields => .object (Field.listOutline fields)
  | .enum values => .enum values
  | .number => .number
  | .string => .string
  | .boolean => .boolean
  | .integer => .integer
  | .null => .null
  | .unrecognized _ => .unrecognized ""
  | .conflicting keywords _ => .conflicting keywords ""

def Shape.listOutline : List Shape → List Shape
  | [] => []
  | s :: rest => Shape.outline s :: Shape.listOutline rest

def Field.listOutline : List Field → List Field
  | [] => []
  | .mk name required s :: rest => .mk name required (Shape.outline s) :: Field.listOutline rest

end

namespace Target

mutual

theorem written_outline (t : Target) : ∀ s : Shape, t.written s.outline = t.written s
  | .mk k nullable => by rw [Shape.outline, written, written, writtenKind_outline t k]

theorem writtenKind_outline (t : Target) : ∀ k : Kind, t.writtenKind k.outline = t.writtenKind k
  | .allOf members => congrArg t.intersection (writtenList_outline t members)
  | .anyOf members => congrArg t.union (writtenList_outline t members)
  | .oneOf members => congrArg t.union (writtenList_outline t members)
  | .array item => congrArg t.array (written_outline t item)
  | .object fields => congrArg t.object (writtenFields_outline t fields)
  | .reference _ | .enum _ | .number | .string | .boolean | .integer | .null
  | .unrecognized _ | .conflicting _ _ => rfl

theorem writtenList_outline (t : Target) : ∀ members : List Shape,
    t.writtenList (Shape.listOutline members) = t.writtenList members
  | [] => rfl
  | s :: rest => by
    rw [Shape.listOutline, writtenList, writtenList, written_outline t s,
      writtenList_outline t rest]

theorem writtenFields_outline (t : Target) : ∀ fields : List Field,
    t.writtenFields (Field.listOutline fields) = t.writtenFields fields
  | [] => rfl
  | .mk name required s :: rest => by
    rw [Field.listOutline, writtenFields, writtenFields, written_outline t s,
      writtenFields_outline t rest]

end

end Target

namespace Schema

theorem variant_plain (s : Schema) : s.plain.variant = s.variant := by
  obtain ⟨r, allOf, anyOf, oneOf, t, i, p, q, e, n, x⟩ := s
  cases allOf <;> cases anyOf <;> cases oneOf <;> cases i <;> cases p <;> rfl

theorem isNullable_plain (s : Schema) : s.plain.isNullable = s.isNullable := by
  obtain ⟨r, allOf, anyOf, oneOf, t, i, p, q, e, n, x⟩ := s
  rcases n with _ | _ | _ <;> rfl

mutual

/-- A schema and its plain form have the same outline. -/
theorem outline_nodeShape_plain : ∀ s : Schema, s.plain.nodeShape.outline = s.nodeShape.outline
  | ⟨reference, allOf, anyOf, oneOf, type, items, properties, required, enum, nullable, extra⟩ => by
    have hcomposites := composites_plain
      ⟨reference, allOf, anyOf, oneOf, type, items, properties, required, enum, nullable, extra⟩
    have hvariant := variant_plain
      ⟨reference, allOf, anyOf, oneOf, type, items, properties, required, enum, nullable, extra⟩
    have hnullable := isNullable_plain
      ⟨reference, allOf, anyOf, oneOf, type, items, properties, required, enum, nullable, extra⟩
    have hall := outline_optionListShapes_plain allOf
    have hany := outline_optionListShapes_plain anyOf
    have hone := outline_optionListShapes_plain oneOf
    have hitem := outline_optionShape_plain items
    have hfields := outline_optionFields_plain (required.getD []) properties
    rw [plain] at hcomposites hvariant hnullable ⊢
    rw [nodeShape, nodeShape, Shape.outline, Shape.outline, hnullable]
    refine congrArg (fun k => Shape.mk k _) ?_
    -- the variant is the same on both sides, and the kind follows from it
    simp only [compositeNames, hcomposites, hvariant]
    split
    · simp only [Kind.outline]
    · generalize variant _ = v
      cases v with
      | allOf => simp only [Kind.outline, hall]
      | anyOf => simp only [Kind.outline, hany]
      | oneOf => simp only [Kind.outline, hone]
      | object => simp only [Kind.outline, hfields]
      | array =>
        cases items with
        | none => simp only [plainOption, optionShape, Kind.outline]
        | some item => exact congrArg Kind.array (Option.some.inj hitem)
      | _ => simp only [Kind.outline]

theorem outline_optionShape_plain : ∀ s : Option Schema,
    (optionShape (plainOption s)).map Shape.outline = (optionShape s).map Shape.outline
  | none => rfl
  | some s => congrArg some (outline_nodeShape_plain s)

theorem outline_listShapes_plain : ∀ schemas : List Schema,
    Shape.listOutline (listShapes (plainList schemas)) = Shape.listOutline (listShapes schemas)
  | [] => rfl
  | s :: rest => by
    rw [plainList, listShapes, listShapes, Shape.listOutline, Shape.listOutline,
      outline_nodeShape_plain s, outline_listShapes_plain rest]

theorem outline_optionListShapes_plain : ∀ schemas : Option (List Schema),
    Shape.listOutline (optionListShapes (plainOptionList schemas)) =
      Shape.listOutline (optionListShapes schemas)
  | none => rfl
  | some schemas => outline_listShapes_plain schemas

theorem outline_fields_plain (required : List String) : ∀ properties : List (String × Schema),
    Field.listOutline (fields required (plainProperties properties)) =
      Field.listOutline (fields required properties)
  | [] => rfl
  | (key, s) :: rest => by
    rw [plainProperties, fields, fields, Field.listOutline, Field.listOutline,
      outline_nodeShape_plain s, outline_fields_plain required rest]

theorem outline_optionFields_plain (required : List String) :
    ∀ properties : Option (List (String × Schema)),
    Field.listOutline (optionFields required (plainOptionProperties properties)) =
      Field.listOutline (optionFields required properties)
  | none => rfl
  | some properties => outline_fields_plain required properties

end

theorem outline_shape_plain (s : Schema) : s.plain.shape.outline = s.shape.outline := by
  rw [shape, shape, ← plain_normalize]
  exact outline_nodeShape_plain s.normalize

/-! ### Contents -/

/-- The contents of a keyword in a plain schema. -/
def plainContent : (k : Keyword) → Option k.Content → Option k.Content
  | .nullable, c => Option.filter id c
  | k, c => c.map (mapContent plain k)

theorem content_plain (s : Schema) (k : Keyword) :
    s.plain.content k = plainContent k (s.content k) := by
  have hself : ∀ {α : Type} (o : Option α), o = o.map id := by
    intro α o
    cases o <;> rfl
  have hlist : ∀ o : Option (List Schema), plainOptionList o = o.map (List.map plain) := by
    intro o
    cases o with
    | none => rfl
    | some schemas => exact congrArg some (plainList_eq_map schemas)
  obtain ⟨r, allOf, anyOf, oneOf, t, i, p, q, e, n, x⟩ := s
  cases k with
  | reference => exact hself r
  | allOf => exact hlist allOf
  | anyOf => exact hlist anyOf
  | oneOf => exact hlist oneOf
  | type => exact hself t
  | items => cases i <;> rfl
  | properties =>
    cases p with
    | none => rfl
    | some properties => exact congrArg some (plainProperties_eq_map properties)
  | required => exact hself q
  | enum => exact hself e
  | nullable => rfl

theorem extra_plain (s : Schema) : s.plain.extra = [] := by
  obtain ⟨r, allOf, anyOf, oneOf, t, i, p, q, e, n, x⟩ := s
  rfl

theorem plain_withContent (s : Schema) (k : Keyword) (c : Option k.Content) :
    (s.withContent k c).plain = s.plain.withContent k (plainContent k c) := by
  refine ext_content (fun l => ?_) ?_
  · by_cases h : l = k
    · subst h
      rw [content_plain, content_withContent, content_withContent]
    · rw [content_plain, content_withContent_of_ne s c h, content_withContent_of_ne _ _ h,
        content_plain]
  · rw [extra_withContent, extra_plain, extra_plain]

end Schema

end ApiTypes
