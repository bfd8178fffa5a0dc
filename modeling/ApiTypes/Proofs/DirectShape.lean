import ApiTypes.Schema.Shape
import Mathlib.Tactic.SplitIfs

/-!
# Shapes without normal forms

`Schema.direct` reads the shape of a schema off the schema as it stands, from the
top down: a composite keyword has its members, and the type keywords beside it as
one more.  It gives the same shapes as normalizing first.
-/

namespace ApiTypes.Schema

/-- The kind that a schema without composite keywords describes, from the shapes
of its items and of its properties: the first that its keywords admit. -/
def ownKind (s : Schema) (item : Option Shape) (fields : Option (List Field))
    (source : String) : Kind :=
  let candidates : List (Option Kind) := [
    s.reference.map .reference,
    if s.type.getD "array" = "array" then item.map .array else none,
    if s.type.getD "object" = "object" then fields.map .object else none,
    if s.type.getD "string" = "string" then
      (s.enum.bind fun values => values.mapM Json.asString?).map .enum else none,
    if s.type = some "number" then some .number else none,
    if s.type = some "string" then some .string else none,
    if s.type = some "boolean" then some .boolean else none,
    if s.type = some "integer" then some .integer else none,
    if s.type = some "null" then some .null else none]
  (candidates.findSome? id).getD (.unrecognized source)

theorem one_le_sizeOf_list {α : Type} [SizeOf α] (xs : List α) : 1 ≤ sizeOf xs := by
  cases xs with
  | nil => simp
  | cons x xs =>
    simp only [List.cons.sizeOf_spec]
    omega

theorem one_le_sizeOf_option {α : Type} [SizeOf α] (o : Option α) : 1 ≤ sizeOf o := by
  cases o with
  | none => simp
  | some a =>
    simp only [Option.some.sizeOf_spec]
    omega

theorem sizeOf_typePart_lt {s s' : Schema} (htype : s.typePart = s'.typePart)
    (h : s'.composites ≠ []) : sizeOf s.typePart < sizeOf s' := by
  have hmembers : ∀ o : Option (List Schema), o.isSome = true → 2 ≤ sizeOf o := by
    intro o ho
    cases o with
    | none => cases ho
    | some members =>
      have hlist := one_le_sizeOf_list members
      simp only [Option.some.sizeOf_spec]
      omega
  rw [htype]
  obtain ⟨r, allOf, anyOf, oneOf, t, i, p, q, e, n, x⟩ := s'
  have hsome : allOf.isSome = true ∨ anyOf.isSome = true ∨ oneOf.isSome = true := by
    cases allOf <;> cases anyOf <;> cases oneOf <;> simp [composites] at h ⊢
  have hall := one_le_sizeOf_option allOf
  have hany := one_le_sizeOf_option anyOf
  have hone := one_le_sizeOf_option oneOf
  have hnull := one_le_sizeOf_option n
  have hextra := one_le_sizeOf_list x
  simp only [typePart, mk.sizeOf_spec, Option.none.sizeOf_spec, List.nil.sizeOf_spec]
  rcases hsome with ho | ho | ho
  all_goals
    have htwo := hmembers _ ho
    omega

mutual

/-- The shape of a schema, from the schema as it stands. -/
def direct : Schema → Shape
  | ⟨reference, allOf, anyOf, oneOf, type, items, properties, required, enum, nullable, extra⟩ =>
    let s : Schema :=
      ⟨reference, allOf, anyOf, oneOf, type, items, properties, required, enum, nullable, extra⟩
    let kind : Kind :=
      match allOf, anyOf, oneOf with
      | none, none, none =>
        s.ownKind (directOption items) (directOptionFields (required.getD []) properties)
          s.normalize.text
      | some members, none, none =>
        .allOf (directList members ++ if s.hasTypeKeyword then [direct s.typePart] else [])
      | none, some members, none =>
        .anyOf (directList members ++ if s.hasTypeKeyword then [direct s.typePart] else [])
      | none, none, some members =>
        .oneOf (directList members ++ if s.hasTypeKeyword then [direct s.typePart] else [])
      | some _, some _, _ | some _, none, some _ | none, some _, some _ =>
        .conflicting s.compositeNames s.normalize.text
    .mk kind (nullable == some true)
termination_by s => sizeOf s
decreasing_by
  all_goals first
    | exact sizeOf_typePart_lt rfl (by simp [composites])
    | decreasing_tactic

def directOption : Option Schema → Option Shape
  | none => none
  | some s => some (direct s)
termination_by s => sizeOf s

def directList : List Schema → List Shape
  | [] => []
  | s :: rest => direct s :: directList rest
termination_by schemas => sizeOf schemas

def directFields (required : List String) : List (String × Schema) → List Field
  | [] => []
  | (name, s) :: rest =>
    .mk name (decide (name ∈ required)) (direct s) :: directFields required rest
termination_by properties => sizeOf properties

def directOptionFields (required : List String) :
    Option (List (String × Schema)) → Option (List Field)
  | none => none
  | some properties => some (directFields required properties)
termination_by properties => sizeOf properties

end

/-! ### Nodes without composites -/

theorem mapM_asString? (values : List Json) :
    values.mapM Json.asString? =
      if values.all Json.isString then some (values.filterMap Json.asString?) else none := by
  induction values with
  | nil => rfl
  | cons v rest ih =>
    rw [List.mapM_cons, ih]
    cases v <;> cases h : rest.all Json.isString <;> simp [Json.asString?, Json.isString, h]

theorem typeAdmits_iff (s : Schema) (name : String) :
    s.typeAdmits name = true ↔ s.type.getD name = name := by
  cases h : s.type <;> simp [typeAdmits, h]

theorem isStringEnum_iff (s : Schema) :
    s.isStringEnum = true ↔
      (s.enum.bind fun values => values.mapM Json.asString?).isSome = true ∧
        s.type.getD "string" = "string" := by
  cases h : s.enum with
  | none => simp [isStringEnum, h]
  | some values =>
    rw [isStringEnum, h, Option.bind_some, mapM_asString?, ← typeAdmits_iff]
    cases hall : values.all Json.isString <;> simp [hall]

theorem isSome_optionShape (s : Option Schema) : (optionShape s).isSome = s.isSome := by
  cases s <;> rfl

theorem candidate_eq_none {α β : Type} {c : Prop} [Decidable c] {o : Option α} {f : α → β}
    (h : ¬ (o.isSome = true ∧ c)) : (if c then o.map f else none) = none := by
  cases o with
  | none => exact ite_self none
  | some a => exact if_neg fun hc => h ⟨rfl, hc⟩

theorem nodeShape_own (s : Schema) (h : s.composites = []) :
    s.nodeShape = .mk (s.ownKind (optionShape s.items)
      (s.properties.map (fields (s.required.getD []))) s.text) s.isNullable := by
  obtain ⟨r, allOf, anyOf, oneOf, t, i, p, q, e, n, x⟩ := s
  obtain ⟨rfl, rfl, rfl⟩ : allOf = none ∧ anyOf = none ∧ oneOf = none := by
    cases allOf <;> cases anyOf <;> cases oneOf <;> simp [composites] at h ⊢
  have hone : ¬ 1 < ([] : List Keyword).length := by decide
  rw [nodeShape, h]
  refine congrArg (fun k => Shape.mk k _) ?_
  rw [if_neg hone]
  simp only [variant, ownKind, typeAdmits_iff, isStringEnum_iff, Bool.and_eq_true, typeIs,
    beq_iff_eq]
  cases r with
  | some path => rfl
  | none =>
    simp only [Option.isSome_none, Bool.false_eq_true, if_false, Option.map_none,
      List.findSome?_cons, List.findSome?_nil, id]
    -- the candidates are passed over in turn, up to the first that is present
    by_cases harray : i.isSome = true ∧ t.getD "array" = "array"
    · obtain ⟨item, rfl⟩ := Option.isSome_iff_exists.mp harray.1
      rw [if_pos harray, if_pos harray.2]
      rfl
    rw [if_neg harray, candidate_eq_none (by rwa [isSome_optionShape])]
    by_cases hobject : p.isSome = true ∧ t.getD "object" = "object"
    · obtain ⟨properties, rfl⟩ := Option.isSome_iff_exists.mp hobject.1
      rw [if_pos hobject, if_pos hobject.2]
      rfl
    rw [if_neg hobject, candidate_eq_none (by rwa [Option.isSome_map])]
    by_cases henum : (e.bind fun values => values.mapM Json.asString?).isSome = true ∧
        t.getD "string" = "string"
    · rw [if_pos henum, if_pos henum.2]
      obtain ⟨strings, hstrings⟩ := Option.isSome_iff_exists.mp henum.1
      obtain ⟨values, rfl, hvalues⟩ := Option.bind_eq_some_iff.mp hstrings
      rw [mapM_asString?] at hvalues
      split at hvalues
      · rw [hstrings, ← Option.some.inj hvalues]
        rfl
      · cases hvalues
    rw [if_neg henum, candidate_eq_none henum]
    split_ifs <;> rfl

/-! ### Normal forms -/

theorem listShapes_append (a b : List Schema) :
    listShapes (a ++ b) = listShapes a ++ listShapes b := by
  induction a with
  | nil => rfl
  | cons s rest ih => rw [List.cons_append, listShapes, listShapes, ih, List.cons_append]

def withNormalChildren (s : Schema) : Schema :=
  { s with allOf := normalizeOptionList s.allOf, anyOf := normalizeOptionList s.anyOf,
           oneOf := normalizeOptionList s.oneOf, items := normalizeOption s.items,
           properties := normalizeOptionProperties s.properties }

theorem normalize_eq_settle (s : Schema) : s.normalize = s.withNormalChildren.settle := by
  obtain ⟨_, _, _, _, _, _, _, _, _, _, _⟩ := s
  rw [normalize]
  rfl

theorem composites_withNormalChildren (s : Schema) :
    s.withNormalChildren.composites = s.composites := by
  obtain ⟨r, allOf, anyOf, oneOf, t, i, p, q, e, n, x⟩ := s
  cases allOf <;> cases anyOf <;> cases oneOf <;> rfl

theorem hasTypeKeyword_withNormalChildren (s : Schema) :
    s.withNormalChildren.hasTypeKeyword = s.hasTypeKeyword := by
  obtain ⟨r, allOf, anyOf, oneOf, t, i, p, q, e, n, x⟩ := s
  cases i <;> cases p <;> rfl

theorem typePart_withNormalChildren (s : Schema) :
    s.withNormalChildren.typePart = s.typePart.normalize := by
  rw [normalize_eq_settle, settle, if_neg]
  · rfl
  · rw [composites_withNormalChildren]
    simp [composites, typePart]

theorem normalize_of_composites_ne_one (s : Schema) (h : s.composites.length ≠ 1) :
    s.normalize = s.withNormalChildren := by
  rw [normalize_eq_settle, settle, if_neg]
  rw [composites_withNormalChildren]
  exact fun hboth => h hboth.1

theorem isNullable_withNormalChildren (s : Schema) :
    s.withNormalChildren.isNullable = (s.nullable == some true) := by
  cases h : s.nullable with
  | none => simp [isNullable, withNormalChildren, h]
  | some b => cases b <;> simp [isNullable, withNormalChildren, h]

/-! ### Nodes with composites -/

theorem nodeShape_conflicting (s : Schema) (h : 1 < s.composites.length) :
    s.nodeShape = .mk (.conflicting s.compositeNames s.text) s.isNullable := by
  obtain ⟨r, allOf, anyOf, oneOf, t, i, p, q, e, n, x⟩ := s
  rw [nodeShape]
  exact congrArg (fun k => Shape.mk k _) (if_pos h)

theorem reference_eq_none {s : Schema} (h : s.hasTypeKeyword = false) : s.reference = none := by
  cases hr : s.reference with
  | none => rfl
  | some path => simp [hasTypeKeyword, hr] at h

/-- A composite that is alone on its node keeps its members; the type keywords
beside it, if there are any, follow them. -/
theorem nodeShape_settle {s : Schema} (kind : List Shape → Kind) (members : List Schema)
    (hone : s.composites.length = 1)
    (hbare : s.reference = none → s.nodeShape = .mk (kind (listShapes members)) s.isNullable)
    (hmoved : (s.withoutTypePart.appendMember s.typePart).nodeShape =
      .mk (kind (listShapes (members ++ [s.typePart]))) s.isNullable) :
    s.settle.nodeShape = .mk (kind (listShapes members ++
      if s.hasTypeKeyword then [s.typePart.nodeShape] else [])) s.isNullable := by
  cases htype : s.hasTypeKeyword with
  | true =>
    rw [settle, if_pos ⟨hone, htype⟩, hmoved, listShapes_append]
    rfl
  | false =>
    have hstays : ¬ (s.composites.length = 1 ∧ s.hasTypeKeyword = true) := by
      rw [htype]
      exact fun hboth => Bool.false_ne_true hboth.2
    rw [settle, if_neg hstays, hbare (reference_eq_none htype)]
    simp

/-! ### Both readings agree -/

theorem nodeShape_normalize_own (s : Schema) (h : s.composites = [])
    (hitems : optionShape (normalizeOption s.items) = directOption s.items)
    (hfields : (normalizeOptionProperties s.properties).map (fields (s.required.getD [])) =
      directOptionFields (s.required.getD []) s.properties) :
    s.normalize.nodeShape = .mk (s.ownKind (directOption s.items)
      (directOptionFields (s.required.getD []) s.properties) s.normalize.text)
      (s.nullable == some true) := by
  have hnormal : s.normalize = s.withNormalChildren :=
    normalize_of_composites_ne_one s (by rw [h]; decide)
  have hown := nodeShape_own s.withNormalChildren ((composites_withNormalChildren s).trans h)
  rw [isNullable_withNormalChildren] at hown
  rw [hnormal, hown, ← hitems, ← hfields]
  rfl

theorem nodeShape_normalize_composite {s : Schema} (kind : List Shape → Kind)
    (members : List Schema) (hone : s.composites.length = 1)
    (hbare : s.withNormalChildren.reference = none → s.withNormalChildren.nodeShape =
      .mk (kind (listShapes (normalizeList members))) s.withNormalChildren.isNullable)
    (hmoved : (s.withNormalChildren.withoutTypePart.appendMember
        s.withNormalChildren.typePart).nodeShape =
      .mk (kind (listShapes (normalizeList members ++ [s.withNormalChildren.typePart])))
        s.withNormalChildren.isNullable)
    (hmembers : listShapes (normalizeList members) = directList members)
    (htype : s.typePart.normalize.nodeShape = s.typePart.direct) :
    s.normalize.nodeShape = .mk (kind (directList members ++
      if s.hasTypeKeyword then [s.typePart.direct] else [])) (s.nullable == some true) := by
  have hlength : s.withNormalChildren.composites.length = 1 := by
    rw [composites_withNormalChildren]
    exact hone
  rw [normalize_eq_settle, nodeShape_settle kind (normalizeList members) hlength hbare hmoved,
    hmembers, typePart_withNormalChildren, htype, hasTypeKeyword_withNormalChildren,
    isNullable_withNormalChildren]

theorem nodeShape_normalize_conflicting (s : Schema) (h : 1 < s.composites.length) :
    s.normalize.nodeShape =
      .mk (.conflicting s.compositeNames s.normalize.text) (s.nullable == some true) := by
  have hnormal : s.normalize = s.withNormalChildren := normalize_of_composites_ne_one s (by omega)
  have hcomposites := composites_withNormalChildren s
  have hnode := nodeShape_conflicting s.withNormalChildren (by rw [hcomposites]; exact h)
  rw [isNullable_withNormalChildren, compositeNames, hcomposites] at hnode
  rw [hnormal, hnode]
  rfl

mutual

theorem nodeShape_normalize : ∀ s : Schema, s.normalize.nodeShape = s.direct
  | ⟨r, none, none, none, t, i, p, q, e, n, x⟩ => by
    have hitems := optionShape_normalize i
    have hfields := optionFields_normalize (q.getD []) p
    rw [nodeShape_normalize_own _ rfl hitems hfields, direct]
  | ⟨r, some members, none, none, t, i, p, q, e, n, x⟩ => by
    have hmembers := listShapes_normalize members
    have htype := nodeShape_normalize (typePart ⟨r, some members, none, none, t, i, p, q, e, n, x⟩)
    rw [nodeShape_normalize_composite .allOf members rfl ?_ rfl hmembers htype, direct]
    rintro (rfl : r = none)
    rfl
  | ⟨r, none, some members, none, t, i, p, q, e, n, x⟩ => by
    have hmembers := listShapes_normalize members
    have htype := nodeShape_normalize (typePart ⟨r, none, some members, none, t, i, p, q, e, n, x⟩)
    rw [nodeShape_normalize_composite .anyOf members rfl ?_ rfl hmembers htype, direct]
    rintro (rfl : r = none)
    rfl
  | ⟨r, none, none, some members, t, i, p, q, e, n, x⟩ => by
    have hmembers := listShapes_normalize members
    have htype := nodeShape_normalize (typePart ⟨r, none, none, some members, t, i, p, q, e, n, x⟩)
    rw [nodeShape_normalize_composite .oneOf members rfl ?_ rfl hmembers htype, direct]
    rintro (rfl : r = none)
    rfl
  | ⟨r, some all, some any, one, t, i, p, q, e, n, x⟩ => by
    have hmany : 1 < (mk r (some all) (some any) one t i p q e n x).composites.length := by
      cases one <;> simp [composites]
    rw [nodeShape_normalize_conflicting _ hmany, direct]
  | ⟨r, some all, none, some one, t, i, p, q, e, n, x⟩ => by
    rw [nodeShape_normalize_conflicting _ (by simp [composites]), direct]
  | ⟨r, none, some any, some one, t, i, p, q, e, n, x⟩ => by
    rw [nodeShape_normalize_conflicting _ (by simp [composites]), direct]
termination_by s => sizeOf s
decreasing_by
  all_goals first
    | exact sizeOf_typePart_lt rfl (by simp [composites])
    | decreasing_tactic

theorem optionShape_normalize : ∀ s : Option Schema,
    optionShape (normalizeOption s) = directOption s
  | none => by
    rw [normalizeOption, optionShape, directOption]
  | some s => by
    rw [normalizeOption, optionShape, directOption, nodeShape_normalize s]
termination_by s => sizeOf s

theorem listShapes_normalize : ∀ schemas : List Schema,
    listShapes (normalizeList schemas) = directList schemas
  | [] => by
    rw [normalizeList, listShapes, directList]
  | s :: rest => by
    rw [normalizeList, listShapes, directList, nodeShape_normalize s, listShapes_normalize rest]
termination_by schemas => sizeOf schemas

theorem fields_normalize (required : List String) : ∀ properties : List (String × Schema),
    fields required (normalizeProperties properties) = directFields required properties
  | [] => by
    rw [normalizeProperties, fields, directFields]
  | (name, s) :: rest => by
    rw [normalizeProperties, fields, directFields, nodeShape_normalize s,
      fields_normalize required rest, List.contains_eq_mem]
termination_by properties => sizeOf properties

theorem optionFields_normalize (required : List String) :
    ∀ properties : Option (List (String × Schema)),
      (normalizeOptionProperties properties).map (fields required) =
        directOptionFields required properties
  | none => by
    rw [normalizeOptionProperties, directOptionFields, Option.map_none]
  | some properties => by
    rw [normalizeOptionProperties, directOptionFields, Option.map_some,
      fields_normalize required properties]
termination_by properties => sizeOf properties

end

/-- The shape of a schema can be read off the schema as it stands. -/
theorem shape_eq_direct (s : Schema) : s.shape = s.direct := nodeShape_normalize s

end ApiTypes.Schema
