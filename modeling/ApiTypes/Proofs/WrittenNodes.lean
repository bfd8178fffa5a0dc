import ApiTypes.Proofs.Decoding
import ApiTypes.Proofs.NormalNodes
import ApiTypes.Proofs.ShapeNodes
import ApiTypes.Target.Codec
import ApiTypes.Target.Flow
import ApiTypes.Target.TypeScript
import ApiTypes.TypeWriter

/-!
# The nodes that are written

The members of a composite are written with the node they stand on, its items only where
it describes an array, its properties only where it describes an object.  A node that is
reached in this way is written as the schema that it is, wherever it stands, and its type
is a part of the type of the whole.  All other nodes are written nowhere.
-/

namespace ApiTypes

namespace Schema
variable {s n c : Schema} {a : Address} {b : Branch} {k : Keyword}

def DescribesArray (s : Schema) : Prop :=
  s.reference = none ∧ s.items.isSome = true ∧ s.type.getD "array" = "array"

def DescribesObject (s : Schema) : Prop :=
  s.reference = none ∧ ¬ s.DescribesArray ∧ s.properties.isSome = true ∧
    s.type.getD "object" = "object"

/-- Whether the schemas under a keyword are written with the node they stand on. -/
structure Enters (s : Schema) (k : Keyword) : Prop where
  composites : s.composites.length ≤ 1
  items : k = .items → s.DescribesArray
  properties : k = .properties → s.DescribesObject

/-- Whether an address leads to a node that is written. -/
def Reaches (s : Schema) : Address → Prop
  | [] => True
  | b :: rest => s.Enters b.keyword ∧ ∃ c, s.child? b = some c ∧ c.Reaches rest

/-! ### One node -/

theorem composites_cases (s : Schema) :
    s.composites = [] ∨ (∃ k, s.composites = [k]) ∨ 1 < s.composites.length := by
  rcases s.composites with _ | ⟨k, _ | ⟨_, _⟩⟩
  · exact .inl rfl
  · exact .inr (.inl ⟨k, rfl⟩)
  · exact .inr (.inr (by simp))

theorem keyword?_variant_of_own (h : s.composites = []) :
    (s.variant.keyword? = some .items ↔ s.DescribesArray) ∧
      (s.variant.keyword? = some .properties ↔ s.DescribesObject) := by
  obtain ⟨r, allOf, anyOf, oneOf, t, i, p, q, e, n, x⟩ := s
  obtain ⟨rfl, rfl, rfl⟩ : allOf = none ∧ anyOf = none ∧ oneOf = none := by
    cases allOf <;> cases anyOf <;> cases oneOf <;> simp [composites] at h ⊢
  simp only [DescribesObject, DescribesArray, variant, typeAdmits_iff, Bool.and_eq_true]
  cases r with
  | some path => simp [Variant.keyword?]
  | none =>
    simp only [Option.isSome_none, Bool.false_eq_true, if_false, true_and]
    split_ifs <;> simp_all [Variant.keyword?]

theorem partKeyword?_of_only (h : s.composites = [k]) (hr : s.reference = none) :
    s.partKeyword? = some k := by
  obtain ⟨r, allOf, anyOf, oneOf, t, i, p, q, e, n, x⟩ := s
  obtain rfl : r = none := hr
  cases allOf <;> cases anyOf <;> cases oneOf <;> simp [composites] at h <;> subst h <;> rfl

theorem variant_withNormalChildren (s : Schema) : s.withNormalChildren.variant = s.variant := by
  obtain ⟨r, allOf, anyOf, oneOf, t, i, p, q, e, n, x⟩ := s
  cases allOf <;> cases anyOf <;> cases oneOf <;> cases i <;> cases p <;> rfl

theorem partKeyword?_normalize_of_not_mixed (h : ¬ s.Mixed) :
    s.normalize.partKeyword? = s.partKeyword? := by
  rw [normalize_of_not_mixed h, partKeyword?, partKeyword?, composites_withNormalChildren,
    variant_withNormalChildren]

theorem partKeyword?_normalize_of_mixesAt (h : s.MixesAt k) :
    s.normalize.partKeyword? = some k := by
  have hframe := (sameFrame_normalize s).composites
  have honly : s.normalize.composites = [k] := by
    rw [composites_eq_filter, List.filter_congr hframe]
    exact h.only
  exact partKeyword?_of_only honly
    (reference_eq_none (hasTypeKeyword_normalize_of_mixed ⟨k, h⟩))

theorem enters_composite_iff (hk : k ∈ compositeKeywords) :
    s.Enters k ↔ s.composites.length ≤ 1 := by
  constructor
  · exact Enters.composites
  · intro h
    refine ⟨h, ?_, ?_⟩
    · rintro rfl
      exact absurd hk (by decide)
    · rintro rfl
      exact absurd hk (by decide)

theorem enters_items_iff : s.Enters .items ↔ s.composites.length ≤ 1 ∧ s.DescribesArray := by
  constructor
  · intro h
    exact ⟨h.composites, h.items rfl⟩
  · intro h
    refine ⟨h.1, fun _ => h.2, fun hkey => ?_⟩
    cases hkey

theorem enters_properties_iff :
    s.Enters .properties ↔ s.composites.length ≤ 1 ∧ s.DescribesObject := by
  constructor
  · intro h
    exact ⟨h.composites, h.properties rfl⟩
  · intro h
    refine ⟨h.1, fun hkey => ?_, fun _ => h.2⟩
    cases hkey

theorem mem_composites_of_child? (hb : b.keyword ∈ compositeKeywords) (hc : s.child? b = some c) :
    b.keyword ∈ s.composites := by
  rw [composites_eq_filter]
  exact List.mem_filter.mpr ⟨hb, has_of_child? hc⟩

theorem partKeyword?_iff_of_own (h : s.composites = []) (hc : s.child? b = some c) :
    s.partKeyword? = some b.keyword ↔ s.Enters b.keyword := by
  have hb : b.keyword ∉ compositeKeywords := by
    intro hb
    have hmem := mem_composites_of_child? hb hc
    rw [h] at hmem
    cases hmem
  have hpart : s.partKeyword? = s.variant.keyword? := by
    rw [partKeyword?, h]
    rfl
  have hone : s.composites.length ≤ 1 := by simp [h]
  obtain ⟨harray, hobject⟩ := keyword?_variant_of_own h
  rw [hpart]
  rcases keyword_of_child? hc hb with hkey | hkey
  · rw [hkey, harray, enters_items_iff, and_iff_right hone]
  · rw [hkey, hobject, enters_properties_iff, and_iff_right hone]

/-- A composite keyword without type keywords beside it is the only one with children. -/
theorem partKeyword?_iff_of_only (hm : ¬ s.Mixed) (h : s.composites = [k])
    (hc : s.child? b = some c) : s.partKeyword? = some b.keyword ↔ s.Enters b.keyword := by
  have htype : s.hasTypeKeyword = false := by
    by_contra htype
    exact hm ⟨k, mixesAt_iff.mpr ⟨h, by simpa using htype⟩⟩
  have hb : b.keyword ∈ compositeKeywords := by
    by_contra hb
    have hword : b.keyword ∈ typeKeywords := by
      rcases keyword_of_child? hc hb with hkey | hkey <;> rw [hkey] <;> decide
    have hbeside := (hasTypeKeyword_iff s).mpr ⟨b.keyword, hword, has_of_child? hc⟩
    rw [htype] at hbeside
    cases hbeside
  have hkey : b.keyword = k := by
    have hmem := mem_composites_of_child? hb hc
    rw [h] at hmem
    exact List.mem_singleton.mp hmem
  rw [enters_composite_iff hb, partKeyword?_of_only h (reference_eq_none htype), hkey, h]
  exact iff_of_true rfl (Nat.le_refl 1)

/-- The parts of a node that is not mixed are the children that it enters. -/
theorem partKeyword?_eq_some_iff (hm : ¬ s.Mixed) (hc : s.child? b = some c) :
    s.partKeyword? = some b.keyword ↔ s.Enters b.keyword := by
  rcases composites_cases s with hnone | ⟨k, hone⟩ | hmany
  · exact partKeyword?_iff_of_own hnone hc
  · exact partKeyword?_iff_of_only hm hone hc
  · rw [partKeyword?, if_pos hmany]
    constructor
    · intro h
      cases h
    · intro h
      have hone := h.composites
      omega

/-! ### The nodes of a schema -/

theorem enters_typePart_iff (hone : s.composites.length ≤ 1) :
    s.typePart.Enters k ↔ s.Enters k := by
  constructor
  · intro h
    exact ⟨hone, h.items, h.properties⟩
  · intro h
    exact ⟨Nat.zero_le 1, h.items, h.properties⟩

theorem child?_shape_of_not_mixed (hm : ¬ s.Mixed) (hc : s.child? b = some c) {x : Shape} :
    s.shape.child? b = some x ↔ s.Enters b.keyword ∧ c.shape = x := by
  rw [shape, child?_nodeShape, partKeyword?_normalize_of_not_mixed hm,
    child?_normalize_of_not_mixed hm, hc, ← partKeyword?_eq_some_iff hm hc]
  split
  · rename_i hpart
    simp [hpart, shape]
  · rename_i hpart
    simp [hpart]

theorem child?_shape_behind (h : s.MixesAt k) :
    s.shape.child? (s.behind k) = some s.typePart.shape := by
  have hpart := partKeyword?_normalize_of_mixesAt h
  rw [shape, child?_nodeShape, child?_normalize_behind h, behind, if_pos hpart]
  rfl

/-- What a node writes for a child, at the place where the child is found. -/
theorem at?_trail_shape (hc : s.child? b = some c) {x : Shape} :
    s.shape.at? (s.trail b) = some x ↔ s.Enters b.keyword ∧ c.shape = x := by
  obtain ⟨hm, -⟩ | ⟨k, hk, hhost⟩ := host_cases s
  · rw [trail_of_not_mixed hm, Shape.at?_branch]
    exact child?_shape_of_not_mixed hm hc
  · have hone : s.composites.length ≤ 1 := by
      rw [(mixesAt_iff.mp hk).1]
      exact Nat.le_refl 1
    -- members of the composite stay where they are, other children follow the type keywords
    by_cases hb : b.keyword ∈ compositeKeywords
    · have hkey := hk.keyword_eq hb hc
      have hpart := partKeyword?_normalize_of_mixesAt hk
      rw [trail_of_mem hb, Shape.at?_branch, shape, child?_nodeShape, hkey, if_pos hpart,
        child?_normalize_of_mem hb hc, ← hkey]
      simp [enters_composite_iff hb, hone, shape]
    · have htype : s.typePart.child? b = some c := child?_typePart_eq_some_iff.mpr ⟨hb, hc⟩
      rw [trail_of_notMem hb, hhost, List.singleton_append, Shape.at?, child?_shape_behind hk,
        Option.bind_some, Shape.at?_branch,
        child?_shape_of_not_mixed (not_mixed_typePart s) htype, enters_typePart_iff hone]

/-- A node that is reached is written as the schema that it is.  Others have no part in the
shape of the whole. -/
theorem at?_place_shape (h : s.at? a = some n) {x : Shape} :
    s.shape.at? (s.place a) = some x ↔ s.Reaches a ∧ n.shape = x := by
  induction a generalizing s with
  | nil =>
    obtain rfl := Option.some.inj h
    simp [place, Shape.at?, Reaches]
  | cons b rest ih =>
    obtain ⟨c, hc, hrest⟩ := at?_cons_eq_some_iff.mp h
    rw [place_cons hc, Shape.at?_append, Option.bind_eq_some_iff]
    simp only [at?_trail_shape hc, Reaches, hc, Option.some.injEq, exists_eq_left']
    constructor
    · rintro ⟨_, ⟨henters, rfl⟩, hx⟩
      obtain ⟨hreaches, hshape⟩ := (ih hrest).mp hx
      exact ⟨⟨henters, hreaches⟩, hshape⟩
    · rintro ⟨⟨henters, hreaches⟩, hshape⟩
      exact ⟨c.shape, ⟨henters, rfl⟩, (ih hrest).mpr ⟨hreaches, hshape⟩⟩

end Schema

/-! ### Parts of a type -/

namespace Text
variable {part middle whole : String}

def Within (part whole : String) : Prop := ∃ before after, whole = before ++ part ++ after

theorem Within.refl (text : String) : Within text text :=
  ⟨"", "", by rw [String.empty_append, String.append_empty]⟩

theorem Within.trans (h : Within part middle) (h' : Within middle whole) : Within part whole := by
  obtain ⟨before, after, rfl⟩ := h
  obtain ⟨front, rear, rfl⟩ := h'
  exact ⟨front ++ before, after ++ rear, by simp only [String.append_assoc]⟩

theorem within_joinWith (separator : String) {texts : List String} (h : part ∈ texts) :
    Within part (joinWith separator texts) := by
  induction texts with
  | nil => cases h
  | cons text texts ih =>
    cases texts with
    | nil =>
      obtain rfl := List.mem_singleton.mp h
      exact .refl part
    | cons other texts =>
      rw [joinWith]
      rcases List.mem_cons.mp h with rfl | h
      · exact ⟨"", separator ++ joinWith separator (other :: texts), by
          rw [String.empty_append, String.append_assoc]⟩
      · have hbehind : Within (joinWith separator (other :: texts))
            (text ++ separator ++ joinWith separator (other :: texts)) :=
          ⟨text ++ separator, "", String.append_empty.symm⟩
        exact (ih h).trans hbehind

end Text

namespace Target
open Text (Within within_joinWith)

/-- The types that a target builds have the types they are built from as parts. -/
structure Encloses (t : Target) : Prop where
  array (item : String) : Within item (t.array item)
  union {members : List String} {type : String} (h : type ∈ members) :
    Within type (t.union members)
  intersection {members : List String} {type : String} (h : type ∈ members) :
    Within type (t.intersection members)
  field (name : String) (required : Bool) (type : String) :
    Within type (t.field name required type)
  object {fields : List String} {field : String} (h : field ∈ fields) :
    Within field (t.object fields)
  nullable (type : String) : Within type (t.nullable type)

def wrap (t : Target) (nullable : Bool) (type : String) : String :=
  if nullable then t.nullable type else type

theorem Encloses.wrap {t : Target} (ht : t.Encloses) (nullable : Bool) (type : String) :
    Within type (t.wrap nullable type) := by
  cases nullable with
  | false => exact .refl type
  | true => exact ht.nullable type

theorem within_record {fields : List String} {field : String} (h : field ∈ fields) :
    Within field (record fields) :=
  (within_joinWith "," h).trans ⟨_, _, rfl⟩

theorem within_grouped (separator empty : String) {members : List String} {type : String}
    (h : type ∈ members) : Within type (grouped separator empty members) := by
  cases members with
  | nil => cases h
  | cons first members => exact (within_joinWith separator h).trans ⟨_, _, rfl⟩

theorem within_combinator (name empty : String) {members : List String} {type : String}
    (h : type ∈ members) : Within type (combinator name empty members) := by
  match members with
  | [] => cases h
  | [member] =>
    obtain rfl := List.mem_singleton.mp h
    exact .refl type
  | _ :: _ :: _ => exact (within_joinWith "," h).trans ⟨_, _, rfl⟩

theorem encloses_static (unknown never header : String) {nullable : String → String}
    (hnullable : ∀ type, Within type (nullable type)) :
    (static unknown never nullable header).Encloses where
  array _ := ⟨_, _, rfl⟩
  union h := within_grouped "|" never h
  intersection h := within_grouped "&" unknown h
  field _ _ _ := ⟨_, "", String.append_empty.symm⟩
  object h := within_record h
  nullable := hnullable

theorem encloses_codec : codec.Encloses where
  array _ := ⟨_, _, rfl⟩
  union h := within_combinator "union" "t.never" h
  intersection h := within_combinator "intersection" "t.unknown" h
  field name required type := by
    cases required with
    | true => exact ⟨_, "", String.append_empty.symm⟩
    | false => exact ⟨_, _, rfl⟩
  object h := (within_record h).trans ⟨_, _, rfl⟩
  nullable _ := ⟨_, _, rfl⟩

theorem encloses {t : Target} (ht : t ∈ [typeScript, flow, codec]) : t.Encloses := by
  simp only [List.mem_cons, List.not_mem_nil, or_false] at ht
  rcases ht with rfl | rfl | rfl
  · exact encloses_static "unknown" "never" "" fun _ => ⟨_, _, rfl⟩
  · exact encloses_static "mixed" "empty" "// @flow\n" fun _ => ⟨_, "", String.append_empty.symm⟩
  · exact encloses_codec

end Target

namespace TypeWriter
open Schema (Address)
open Text (Within)
variable {w : TypeWriter} {k : Kind} {s c : Shape} {type : String}

theorem shape_eq_ok_iff (k : Kind) (nullable : Bool) :
    w.shape (.mk k nullable) = .ok type ↔
      ∃ inner, w.kind k = .ok inner ∧ w.target.wrap nullable inner = type := by
  rw [shape, bind_eq_ok_iff]
  simp only [pure_eq_ok_iff, Target.wrap]

theorem shapes_eq_ok_iff {members : List Shape} {types : List String} :
    w.shapes members = .ok types ↔
      List.Forall₂ (fun s type => w.shape s = .ok type) members types := by
  induction members generalizing types with
  | nil => simp [shapes, eq_comm]
  | cons s rest ih =>
    rw [shapes, List.forall₂_cons_left_iff]
    simp only [bind_eq_ok_iff, pure_eq_ok_iff, ih, exists_and_left, eq_comm (a := types)]

theorem part_of_fields (ht : w.target.Encloses) {members : List Field} {texts : List String}
    (h : w.fields members = .ok texts) (hc : c ∈ members.map Field.shape) :
    ∃ part, w.shape c = .ok part ∧ ∃ text ∈ texts, Within part text := by
  induction members generalizing texts with
  | nil => cases hc
  | cons field rest ih =>
    obtain ⟨name, required, s⟩ := field
    rw [fields] at h
    obtain ⟨type, hs, h⟩ := bind_eq_ok_iff.mp h
    obtain ⟨others, hrest, h⟩ := bind_eq_ok_iff.mp h
    obtain rfl := pure_eq_ok_iff.mp h
    rcases List.mem_cons.mp hc with rfl | hc
    · exact ⟨type, hs, _, List.mem_cons_self, ht.field name required type⟩
    · obtain ⟨part, hpart, text, hmem, hwithin⟩ := ih hrest hc
      exact ⟨part, hpart, text, List.mem_cons_of_mem _ hmem, hwithin⟩

theorem part_of_kind (ht : w.target.Encloses) {word : Keyword} (h : w.kind k = .ok type)
    (hc : c ∈ k.children word) : ∃ part, w.shape c = .ok part ∧ Within part type := by
  have hcomposite : ∀ {members : List Shape} {compose : List String → String},
      (∀ {types : List String} {type : String}, type ∈ types → Within type (compose types)) →
      c ∈ members → (w.shapes members).map compose = .ok type →
      ∃ part, w.shape c = .ok part ∧ Within part type := by
    intro members compose hcompose hc h
    obtain ⟨types, htypes, rfl⟩ := map_eq_ok_iff.mp h
    obtain ⟨part, hmem, hpart⟩ := exists_of_forall₂_of_mem (shapes_eq_ok_iff.mp htypes).flip hc
    exact ⟨part, hpart, hcompose hmem⟩
  -- a kind has children under its own keyword only
  cases word with
  | allOf =>
    cases k with
    | allOf members => exact hcomposite ht.intersection hc h
    | _ => cases hc
  | anyOf =>
    cases k with
    | anyOf members => exact hcomposite ht.union hc h
    | _ => cases hc
  | oneOf =>
    cases k with
    | oneOf members => exact hcomposite ht.union hc h
    | _ => cases hc
  | items =>
    cases k with
    | array item =>
      obtain rfl := List.mem_singleton.mp hc
      obtain ⟨part, hpart, rfl⟩ := map_eq_ok_iff.mp h
      exact ⟨part, hpart, ht.array part⟩
    | _ => cases hc
  | properties =>
    cases k with
    | object members =>
      obtain ⟨texts, htexts, rfl⟩ := map_eq_ok_iff.mp h
      obtain ⟨part, hpart, text, hmem, hwithin⟩ := part_of_fields ht htexts hc
      exact ⟨part, hpart, hwithin.trans (ht.object hmem)⟩
    | _ => cases hc
  | _ => cases hc

/-- The parts of a shape that is written are written too, within its type. -/
theorem part_of_shape (ht : w.target.Encloses) {a : Address} (h : w.shape s = .ok type)
    (hc : s.at? a = some c) : ∃ part, w.shape c = .ok part ∧ Within part type := by
  induction a generalizing s type with
  | nil =>
    obtain rfl := Option.some.inj hc
    exact ⟨type, h, .refl type⟩
  | cons b rest ih =>
    obtain ⟨k, nullable⟩ := s
    obtain ⟨d, hd, hrest⟩ := Option.bind_eq_some_iff.mp hc
    obtain ⟨inner, hinner, rfl⟩ := (shape_eq_ok_iff k nullable).mp h
    obtain ⟨middle, hmiddle, hwithin⟩ := part_of_kind ht hinner (List.mem_of_getElem? hd)
    obtain ⟨part, hpart, hbelow⟩ := ih hmiddle hrest
    exact ⟨part, hpart, hbelow.trans (hwithin.trans (ht.wrap nullable inner))⟩

/-- Whatever a schema is written in, its nodes that are reached are written as the schemas
that they are, within the type of the whole. -/
theorem written_of_reaches (ht : w.target.Encloses) {p n : Schema} {a : Address}
    (h : w.shape p.shape = .ok type) (hn : p.at? a = some n) (hreaches : p.Reaches a) :
    ∃ part, w.shape n.shape = .ok part ∧ Within part type :=
  part_of_shape ht h ((Schema.at?_place_shape hn).mpr ⟨hreaches, rfl⟩)

end TypeWriter

end ApiTypes
