import ApiTypes.Proofs.DirectShape
import ApiTypes.Proofs.SchemaNodes

/-!
# Normal forms

A schema is normal when none of its nodes mixes a single composite keyword with
keywords that describe a type by themselves.  Normalizing gives a normal schema,
and leaves alone exactly the schemas that are normal already.
-/

namespace ApiTypes.Schema

def compositeKeywords : List Keyword := [.allOf, .anyOf, .oneOf]

/-- The keywords that describe a type by themselves. -/
def typeKeywords : List Keyword := [.reference, .type, .items, .properties, .required, .enum]

/-- Whether a keyword is present. -/
def has (s : Schema) : Keyword → Bool
  | .reference => s.reference.isSome
  | .allOf => s.allOf.isSome
  | .anyOf => s.anyOf.isSome
  | .oneOf => s.oneOf.isSome
  | .type => s.type.isSome
  | .items => s.items.isSome
  | .properties => s.properties.isSome
  | .required => s.required.isSome
  | .enum => s.enum.isSome
  | .nullable => s.nullable.isSome

/-- The only composite keyword is `k`, and a type keyword stands beside it. -/
structure MixesAt (s : Schema) (k : Keyword) : Prop where
  only : compositeKeywords.filter s.has = [k]
  beside : ∃ word ∈ typeKeywords, s.has word = true

def Mixed (s : Schema) : Prop := ∃ k, s.MixesAt k

/-- No node is mixed, at any depth. -/
def IsNormal (s : Schema) : Prop := ∀ a n, s.at? a = some n → ¬ n.Mixed

variable {s c : Schema} {k : Keyword}

theorem composites_eq_filter (s : Schema) : s.composites = compositeKeywords.filter s.has := by
  obtain ⟨r, allOf, anyOf, oneOf, t, i, p, q, e, n, x⟩ := s
  cases allOf <;> cases anyOf <;> cases oneOf <;> rfl

theorem hasTypeKeyword_iff (s : Schema) :
    s.hasTypeKeyword = true ↔ ∃ word ∈ typeKeywords, s.has word = true := by
  simp [hasTypeKeyword, typeKeywords, has, or_assoc]

theorem mixesAt_iff : s.MixesAt k ↔ s.composites = [k] ∧ s.hasTypeKeyword = true := by
  rw [composites_eq_filter, hasTypeKeyword_iff]
  exact ⟨fun h => ⟨h.only, h.beside⟩, fun h => ⟨h.1, h.2⟩⟩

theorem mixed_iff : s.Mixed ↔ s.composites.length = 1 ∧ s.hasTypeKeyword = true := by
  simp only [Mixed, mixesAt_iff, List.length_eq_one_iff, exists_and_right]

theorem mem_compositeKeywords (h : s.composites = [k]) : k ∈ compositeKeywords := by
  rw [composites_eq_filter] at h
  exact List.mem_of_mem_filter (h ▸ List.mem_singleton_self k)

/-! ### One node of a normal form -/

theorem normalizeList_eq_map (schemas : List Schema) :
    normalizeList schemas = schemas.map normalize := by
  induction schemas with
  | nil => rfl
  | cons s rest ih => rw [normalizeList, ih, List.map_cons]

theorem normalizeProperties_eq_map (properties : List (String × Schema)) :
    normalizeProperties properties = properties.map fun entry => (entry.1, entry.2.normalize) := by
  induction properties with
  | nil => rfl
  | cons entry rest ih => rw [normalizeProperties, ih, List.map_cons]

theorem children_withNormalChildren (s : Schema) (k : Keyword) :
    s.withNormalChildren.children k = (s.children k).map normalize := by
  have hlist : ∀ o : Option (List Schema),
      (normalizeOptionList o).getD [] = (o.getD []).map normalize := by
    rintro (_ | members)
    · rfl
    · exact normalizeList_eq_map members
  cases k with
  | allOf => exact hlist s.allOf
  | anyOf => exact hlist s.anyOf
  | oneOf => exact hlist s.oneOf
  | items =>
    simp only [children, withNormalChildren]
    cases s.items <;> rfl
  | properties =>
    simp only [children, withNormalChildren]
    cases s.properties with
    | none => rfl
    | some properties =>
      simp only [normalizeOptionProperties, Option.getD_some, normalizeProperties_eq_map,
        List.map_map]
      rfl
  | reference | type | required | enum | nullable => rfl

theorem mixed_withNormalChildren : s.withNormalChildren.Mixed ↔ s.Mixed := by
  rw [mixed_iff, mixed_iff, composites_withNormalChildren, hasTypeKeyword_withNormalChildren]

theorem normalize_of_not_mixed (h : ¬ s.Mixed) : s.normalize = s.withNormalChildren := by
  rw [normalize_eq_settle, settle, if_neg]
  rwa [← mixed_iff, mixed_withNormalChildren]

theorem normalize_of_mixed (h : s.Mixed) :
    s.normalize = s.withNormalChildren.withoutTypePart.appendMember s.typePart.normalize := by
  rw [normalize_eq_settle, settle, if_pos, typePart_withNormalChildren]
  rwa [← mixed_iff, mixed_withNormalChildren]

theorem hasTypeKeyword_normalize_of_mixed (h : s.Mixed) : s.normalize.hasTypeKeyword = false := by
  rw [normalize_of_mixed h]
  unfold appendMember
  split <;> rfl

theorem has_normalize_of_mixed (h : s.Mixed) {word : Keyword} (hword : word ∈ typeKeywords) :
    s.normalize.has word = false := by
  by_contra hpresent
  have htype := (hasTypeKeyword_iff s.normalize).mpr ⟨word, hword, by simpa using hpresent⟩
  rw [hasTypeKeyword_normalize_of_mixed h] at htype
  cases htype

theorem not_mixed_normalize (s : Schema) : ¬ s.normalize.Mixed := by
  by_cases h : s.Mixed
  · rw [mixed_iff, hasTypeKeyword_normalize_of_mixed h]
    exact fun hboth => Bool.false_ne_true hboth.2
  · rwa [normalize_of_not_mixed h, mixed_withNormalChildren]

theorem children_eq_nil_of_has_eq_false (h : s.has k = false) : s.children k = [] := by
  cases k <;> simp_all [has, children]

/-- A node that is mixed at `k` has no children in its normal form but its former
members under `k` and, behind them, what stood beside them. -/
theorem children_normalize_of_mixesAt (h : s.MixesAt k) (k' : Keyword) :
    s.normalize.children k' =
      if k' = k then (s.children k).map normalize ++ [s.typePart.normalize] else [] := by
  have hone := (mixesAt_iff.mp h).1
  rw [normalize_of_mixed ⟨k, h⟩, ← children_withNormalChildren]
  rw [← composites_withNormalChildren] at hone
  generalize s.withNormalChildren = t at hone
  generalize s.typePart.normalize = member
  obtain ⟨r, allOf, anyOf, oneOf, ty, i, p, q, e, n, x⟩ := t
  cases allOf <;> cases anyOf <;> cases oneOf <;> simp [composites] at hone <;> subst hone <;>
    cases k' <;> simp [children, appendMember, withoutTypePart]

/-! ### Normal schemas -/

theorem exists_eq_normalize (h : c ∈ s.normalize.children k) : ∃ c' : Schema, c = c'.normalize := by
  by_cases hm : s.Mixed
  · obtain ⟨word, hword⟩ := hm
    rw [children_normalize_of_mixesAt hword] at h
    split at h
    · rcases List.mem_append.mp h with h | h
      · obtain ⟨c', -, rfl⟩ := List.mem_map.mp h
        exact ⟨c', rfl⟩
      · exact ⟨s.typePart, List.mem_singleton.mp h⟩
    · cases h
  · rw [normalize_of_not_mixed hm, children_withNormalChildren] at h
    obtain ⟨c', -, rfl⟩ := List.mem_map.mp h
    exact ⟨c', rfl⟩

theorem isNormal_normalize (s : Schema) : s.normalize.IsNormal := by
  intro a
  -- every node below a normal form is itself the normal form of a schema
  induction a generalizing s with
  | nil =>
    rintro n hn
    obtain rfl := Option.some.inj hn
    exact not_mixed_normalize s
  | cons b rest ih =>
    intro n hn
    obtain ⟨c, hc, hrest⟩ := at?_cons_eq_some_iff.mp hn
    obtain ⟨c', rfl⟩ := exists_eq_normalize (mem_children_of_child? hc)
    exact ih c' n hrest

theorem IsNormal.child (h : s.IsNormal) (hc : c ∈ s.children k) : c.IsNormal := by
  intro a n hn
  obtain ⟨i, hi⟩ := List.mem_iff_getElem?.mp hc
  exact h (⟨k, i⟩ :: a) n (at?_cons_eq_some_iff.mpr ⟨c, hi, hn⟩)

theorem isNormal_iff : s.IsNormal ↔ ¬ s.Mixed ∧ ∀ k, ∀ c ∈ s.children k, c.IsNormal := by
  constructor
  · intro h
    exact ⟨h [] s rfl, fun k c hc => h.child hc⟩
  · intro h a n hn
    cases a with
    | nil =>
      obtain rfl := Option.some.inj hn
      exact h.1
    | cons b rest =>
      obtain ⟨c, hc, hrest⟩ := at?_cons_eq_some_iff.mp hn
      exact h.2 b.keyword c (mem_children_of_child? hc) rest n hrest

theorem withNormalChildren_eq_self (h : ∀ k, ∀ c ∈ s.children k, c.normalize = c) :
    s.withNormalChildren = s := by
  have hlist : ∀ o : Option (List Schema), (∀ c ∈ o.getD [], c.normalize = c) →
      normalizeOptionList o = o := by
    rintro (_ | members) hc
    · rfl
    · have hmembers : ∀ c ∈ members, c.normalize = c := hc
      rw [normalizeOptionList, normalizeList_eq_map, List.map_congr_left hmembers, List.map_id']
  have hitems : normalizeOption s.items = s.items := by
    have hc := h .items
    simp only [children] at hc
    cases hi : s.items with
    | none => rfl
    | some item =>
      rw [normalizeOption, hc item (by simp [hi])]
  have hproperties : normalizeOptionProperties s.properties = s.properties := by
    have hc := h .properties
    simp only [children] at hc
    cases hp : s.properties with
    | none => rfl
    | some properties =>
      rw [normalizeOptionProperties, normalizeProperties_eq_map]
      have hentry : ∀ entry ∈ properties, (entry.1, entry.2.normalize) = entry := by
        intro entry hmem
        rw [hc entry.2 (by rw [hp]; exact List.mem_map_of_mem hmem)]
      rw [List.map_congr_left hentry, List.map_id']
  rw [withNormalChildren, hlist s.allOf (h .allOf), hlist s.anyOf (h .anyOf),
    hlist s.oneOf (h .oneOf), hitems, hproperties]
  cases s
  rfl

theorem normalize_of_isNormal (s : Schema) : s.IsNormal → s.normalize = s := by
  induction s using induction_children with
  | step s ih =>
    intro h
    rw [normalize_of_not_mixed (h [] s rfl)]
    exact withNormalChildren_eq_self fun k c hc => ih k c hc (h.child hc)

/-- Normal forms are normal, and they are what normalizing leaves as it is. -/
theorem normalize_fixed_points (s : Schema) :
    s.normalize.IsNormal ∧ (s.normalize = s ↔ s.IsNormal) ∧
      s.normalize.normalize = s.normalize := by
  refine ⟨isNormal_normalize s, ⟨?_, normalize_of_isNormal s⟩, ?_⟩
  · intro h
    rw [← h]
    exact isNormal_normalize s
  · exact normalize_of_isNormal s.normalize (isNormal_normalize s)

end ApiTypes.Schema
