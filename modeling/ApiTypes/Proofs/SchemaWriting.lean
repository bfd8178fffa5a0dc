import ApiTypes.Proofs.SchemaGrammar

/-!
# Writing schemas

A schema is written as an object: its keywords that are present in their fixed order,
then its other keys.  What is found under a keyword is what its contents are written as.
-/

namespace ApiTypes.Schema
open Json (Node)

theorem mem_optionalMember_iff {k : Keyword} {o : Option Json} {member : String × Json} :
    member ∈ optionalMember k o ↔ member.1 = k.name ∧ o = some member.2 := by
  obtain ⟨key, value⟩ := member
  cases o with
  | none => simp [optionalMember]
  | some v => simp [optionalMember, eq_comm]

/-! ### Keywords in front of other members -/

/-- The keywords that are present, in their fixed order. -/
def keywordMembers (o : Keyword → Option Json) : List (String × Json) :=
  Keyword.all.flatMap fun k => optionalMember k (o k)

section
variable {o : Keyword → Option Json} {others : List (String × Json)}

theorem mem_keywordMembers_iff {member : String × Json} :
    member ∈ keywordMembers o ↔ ∃ k : Keyword, member.1 = k.name ∧ o k = some member.2 := by
  rw [keywordMembers, List.mem_flatMap]
  constructor
  · rintro ⟨k, -, hmem⟩
    exact ⟨k, mem_optionalMember_iff.mp hmem⟩
  · rintro ⟨k, hmem⟩
    exact ⟨k, Keyword.mem_all k, mem_optionalMember_iff.mpr hmem⟩

/-- What stands under a keyword is decided by the front part. -/
theorem mem_keywordMembers_append_iff (hothers : ∀ member ∈ others, isOther member = true)
    {k : Keyword} {value : Json} :
    (k.name, value) ∈ keywordMembers o ++ others ↔ o k = some value := by
  rw [List.mem_append, mem_keywordMembers_iff]
  constructor
  · rintro (⟨l, hname, hvalue⟩ | hmem)
    · obtain rfl := Keyword.name_injective hname
      exact hvalue
    · have hother := hothers _ hmem
      rw [isOther_keyword] at hother
      cases hother
  · intro h
    exact .inl ⟨k, rfl, h⟩

theorem filter_isOther_keywordMembers_append (hothers : ∀ member ∈ others, isOther member = true) :
    (keywordMembers o ++ others).filter isOther = others := by
  have hfront : (keywordMembers o).filter isOther = [] := by
    rw [List.filter_eq_nil_iff]
    rintro ⟨key, value⟩ hmem
    obtain ⟨k, hname, -⟩ := mem_keywordMembers_iff.mp hmem
    obtain rfl : key = k.name := hname
    simp [isOther_keyword]
  rw [List.filter_append, hfront, List.nil_append, List.filter_eq_self.mpr hothers]

theorem nodup_keys_keywordMembers_append (hkeys : (others.map Prod.fst).Nodup)
    (hothers : ∀ member ∈ others, isOther member = true) :
    ((keywordMembers o ++ others).map Prod.fst).Nodup := by
  have hsublist : ∀ ks : List Keyword,
      List.Sublist ((ks.flatMap fun k => optionalMember k (o k)).map Prod.fst)
        (ks.map Keyword.name) := by
    intro ks
    induction ks with
    | nil => exact List.Sublist.refl []
    | cons k rest ih =>
      rw [List.flatMap_cons, List.map_append, List.map_cons]
      cases o k with
      | none => exact ih.cons k.name
      | some value => exact ih.cons_cons k.name
  have hkeywords : (Keyword.all.map Keyword.name).Nodup := by decide
  rw [List.map_append, List.nodup_append]
  refine ⟨hkeywords.sublist (hsublist _), hkeys, ?_⟩
  -- a key is a keyword's in the front part, and in the back part it is not
  rintro key hkeyword _ hother rfl
  obtain ⟨k, -, rfl⟩ := List.mem_map.mp ((hsublist _).subset hkeyword)
  obtain ⟨⟨_, value⟩, hmem, rfl⟩ := List.mem_map.mp hother
  have hback := hothers _ hmem
  rw [isOther_keyword] at hback
  cases hback

end

theorem isOther_of_mem_filter (members : List (String × Json)) :
    ∀ member ∈ members.filter isOther, isOther member = true :=
  fun _ h => (List.mem_filter.mp h).2

/-! ### Contents -/

/-- The contents of a keyword as they are written. -/
def contentToJson : (k : Keyword) → k.Content → Json
  | .reference | .type => Json.string
  | .allOf | .anyOf | .oneOf => fun schemas => .array (schemas.map toJson)
  | .items => toJson
  | .properties => fun properties => .object (properties.map fun entry => (entry.1, entry.2.toJson))
  | .required => fun names => .array (names.map .string)
  | .enum => Json.array
  | .nullable => Json.bool

theorem listToJson_eq_map (schemas : List Schema) : listToJson schemas = schemas.map toJson := by
  induction schemas with
  | nil => rfl
  | cons s rest ih => rw [listToJson, ih, List.map_cons]

theorem propertiesToJson_eq_map (properties : List (String × Schema)) :
    propertiesToJson properties = properties.map fun entry => (entry.1, entry.2.toJson) := by
  induction properties with
  | nil => rfl
  | cons entry rest ih => rw [propertiesToJson, ih, List.map_cons]

theorem toJson_eq (s : Schema) :
    s.toJson =
      .object (keywordMembers (fun k => (s.content k).map (contentToJson k)) ++ s.extra) := by
  have hlist : ∀ o : Option (List Schema),
      optionListToJson o = o.map fun schemas => .array (schemas.map toJson) := by
    intro o
    cases o with
    | none => rfl
    | some schemas => rw [optionListToJson, listToJson_eq_map, Option.map_some]
  have hproperties : ∀ o : Option (List (String × Schema)), optionPropertiesToJson o =
      o.map fun properties => .object (properties.map fun entry => (entry.1, entry.2.toJson)) := by
    intro o
    cases o with
    | none => rfl
    | some properties =>
      rw [optionPropertiesToJson, propertiesToJson_eq_map, Option.map_some]
  obtain ⟨r, allOf, anyOf, oneOf, t, items, p, q, e, n, x⟩ := s
  have hitems : optionToJson items = items.map toJson := by cases items <;> rfl
  rw [toJson, hlist, hlist, hlist, hproperties, hitems]
  simp only [keywordMembers, Keyword.all, List.flatMap_cons, List.flatMap_nil, List.append_nil,
    List.append_assoc]
  rfl

end ApiTypes.Schema
