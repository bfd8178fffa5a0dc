import ApiTypes.Proofs.NormalNodes
import ApiTypes.Proofs.SchemaWriting

/-!
# Schemas that are read back

A schema is tidy if at each of its nodes the names of the properties are distinct, the
other keys are distinct and no keywords, and the values that are kept have a given
property.  Decoding gives tidy schemas, and normalizing keeps them tidy.  A tidy schema
is written as a value that decodes to it again, and that has the property throughout.
-/

namespace ApiTypes
open Json (Node)

/-- A property that a value has if and only if what it is made of has it, as far as values
without repeated keys go and numbers and `null` are left aside. -/
structure Json.Structural (P : Json → Prop) : Prop extends Json.Hereditary P where
  bool : ∀ b, P (.bool b)
  string : ∀ s, P (.string s)
  array : ∀ items, (∀ item ∈ items, P item) → P (.array items)
  object : ∀ members, (members.map Prod.fst).Nodup → (∀ member ∈ members, P member.2) →
    P (.object members)

theorem Json.structural_distinct : Json.Structural Json.Distinct where
  toHereditary := hereditary_distinct
  bool _ := trivial
  string _ := trivial
  array _ h := distinctItems_iff.mpr h
  object _ hkeys h := ⟨hkeys, distinctMembers_iff.mpr h⟩

namespace Schema

/-- The values that a node keeps without looking into them. -/
def keptValues (s : Schema) : List Json := s.enum.getD [] ++ s.extra.map Prod.snd

structure TidyNode (P : Json → Prop) (s : Schema) : Prop where
  names : ∀ names, s.propertyNames = some names → names.Nodup
  keys : (s.extra.map Prod.fst).Nodup
  others : ∀ member ∈ s.extra, isOther member = true
  values : ∀ value ∈ s.keptValues, P value

/-- Every node is tidy, at any depth. -/
def Tidy (P : Json → Prop) (s : Schema) : Prop := ∀ a n, s.at? a = some n → n.TidyNode P

variable {P : Json → Prop} {s : Schema}

theorem tidy_iff : s.Tidy P ↔ s.TidyNode P ∧ ∀ k, ∀ c ∈ s.children k, c.Tidy P := by
  constructor
  · intro h
    refine ⟨h [] s rfl, fun k c hc a n hn => ?_⟩
    obtain ⟨i, hi⟩ := List.mem_iff_getElem?.mp hc
    exact h (⟨k, i⟩ :: a) n (at?_cons_eq_some_iff.mpr ⟨c, hi, hn⟩)
  · rintro ⟨hnode, hchildren⟩ a n hn
    cases a with
    | nil =>
      obtain rfl := Option.some.inj hn
      exact hnode
    | cons b rest =>
      obtain ⟨c, hc, hrest⟩ := at?_cons_eq_some_iff.mp hn
      exact hchildren b.keyword c (mem_children_of_child? hc) rest n hrest

/-! ### What is decoded -/

/-- The schemas in the contents of a keyword. -/
def schemasIn : (k : Keyword) → k.Content → List Schema
  | .allOf | .anyOf | .oneOf => id
  | .items => fun item => [item]
  | .properties => fun properties => properties.map Prod.snd
  | .reference | .type | .required | .enum | .nullable => fun _ => []

theorem children_eq (s : Schema) (k : Keyword) :
    s.children k = (s.content k).elim [] (schemasIn k) := by
  have hlist : ∀ o : Option (List Schema), o.getD [] = o.elim [] id := by
    rintro (_ | schemas) <;> rfl
  have hnone : ∀ {α : Type} (o : Option α), [] = o.elim ([] : List Schema) fun _ => [] := by
    rintro α (_ | c) <;> rfl
  cases k with
  | allOf => exact hlist s.allOf
  | anyOf => exact hlist s.anyOf
  | oneOf => exact hlist s.oneOf
  | items =>
    simp only [children, content]
    cases s.items <;> rfl
  | properties =>
    simp only [children, content]
    cases s.properties <;> rfl
  | reference | type | required | enum | nullable => exact hnone _

theorem exists_mem_schemasUnder {k : Keyword} {value : Json} {c : k.Content} {t : Schema}
    (hc : k.decoder.onValue value = .ok c) (ht : t ∈ schemasIn k c) :
    ∃ w ∈ schemasUnder k value, Decoder.onValue decode w = .ok t := by
  have hlist : ∀ schemas : List Schema, (Decoder.list decode).onValue value = .ok schemas →
      t ∈ schemas → ∃ items, value = .array items ∧
        ∃ w ∈ items, Decoder.onValue decode w = .ok t := by
    intro schemas hschemas hmem
    obtain ⟨items, rfl, hitems⟩ := list_onValue_eq_ok_iff.mp hschemas
    exact ⟨items, rfl, exists_of_forall₂_of_mem hitems hmem⟩
  cases k with
  | allOf | anyOf | oneOf =>
    obtain ⟨items, rfl, hitems⟩ := hlist c hc ht
    exact hitems
  | items =>
    obtain rfl := List.mem_singleton.mp ht
    exact ⟨value, List.mem_singleton_self value, hc⟩
  | properties =>
    obtain ⟨members, entries, rfl, hentries, rfl⟩ := map_onValue_eq_ok_iff.mp hc
    obtain ⟨entry, hentry, rfl⟩ := List.mem_map.mp ht
    obtain ⟨member, hmember, -, hdecodes⟩ :=
      exists_of_forall₂_of_mem hentries (Members.mem_of_mem_ofList hentry)
    exact ⟨member.2, List.mem_map_of_mem hmember, hdecodes⟩
  | reference | type | required | enum | nullable => cases ht

section
variable {members : List (String × Json)}

theorem Filled.exists_member (h : Filled {} members s) {k : Keyword} {c : k.Content}
    (hc : s.content k = some c) :
    ∃ value, (k.name, value) ∈ members ∧ k.decoder.onValue value = .ok c := by
  have hkey : k.name ∈ members.map Prod.fst := by
    by_contra hkey
    have habsent := h.absent k hkey
    rw [hc, content_empty] at habsent
    cases habsent
  obtain ⟨⟨_, value⟩, hmem, rfl⟩ := List.mem_map.mp hkey
  refine ⟨value, hmem, ?_⟩
  have hpresent := h.present k value hmem
  rw [hc, optional_onValue] at hpresent
  split at hpresent
  · cases hpresent
  · cases hdecoded : k.decoder.onValue value with
    | error failure =>
      rw [hdecoded] at hpresent
      cases hpresent
    | ok d =>
      rw [hdecoded] at hpresent
      rw [Option.some.inj (Except.ok.inj hpresent)]

theorem eq_of_forall₂_json {items values : List Json} (hitems : Json.DistinctItems items)
    (h : List.Forall₂ (fun item v => Decoder.json.onValue item = .ok v) items values) :
    values = items := by
  induction h with
  | nil => rfl
  | @cons item v _ _ hhead _ ih =>
    rw [json_onValue, Node.toJson_ofJson item hitems.1] at hhead
    rw [ih hitems.2, Except.ok.inj hhead]

theorem tidyNode_of_filled (hP : Json.Hereditary P) (hvalue : (Json.object members).Distinct)
    (hmembers : P (.object members)) (h : Filled {} members s) : s.TidyNode P := by
  have hextra : s.extra = members.filter isOther := h.extra
  refine ⟨?_, ?_, ?_, ?_⟩
  · intro names hnames
    obtain ⟨properties, hproperties, rfl⟩ := Option.map_eq_some_iff.mp hnames
    obtain ⟨value, -, hdecoded⟩ := h.exists_member (k := .properties) hproperties
    obtain ⟨_, entries, -, -, rfl⟩ := map_onValue_eq_ok_iff.mp hdecoded
    exact Members.nodup_keys_ofList entries
  · rw [hextra]
    exact hvalue.1.sublist (List.filter_sublist.map Prod.fst)
  · rw [hextra]
    exact isOther_of_mem_filter members
  · intro value hmem
    rcases List.mem_append.mp hmem with hmem | hmem
    · cases henum : s.enum with
      | none => simp [henum] at hmem
      | some values =>
        obtain ⟨v, hv, hdecoded⟩ := h.exists_member (k := .enum) henum
        obtain ⟨items, rfl, hitems⟩ := list_onValue_eq_ok_iff.mp hdecoded
        have hdistinct : Json.DistinctItems items := Json.distinctMembers_iff.mp hvalue.2 _ hv
        rw [henum, eq_of_forall₂_json hdistinct hitems] at hmem
        exact hP.item items (hP.member members hmembers _ hv) value hmem
    · obtain ⟨member, hmember, rfl⟩ := List.mem_map.mp hmem
      rw [hextra] at hmember
      exact hP.member members hmembers member (List.mem_filter.mp hmember).1

end

theorem tidy_of_decode (hP : Json.Hereditary P) (value : Json) (hvalue : value.Distinct) :
    P value → ∀ s : Schema, Decoder.onValue decode value = .ok s → s.Tidy P := by
  induction value, hvalue using induction_schemasUnder with
  | object members hvalue ih =>
    intro hmembers s h
    have hfilled := (decode_object_eq_ok_iff hvalue).mp h
    refine tidy_iff.mpr ⟨tidyNode_of_filled hP hvalue hmembers hfilled, fun k t ht => ?_⟩
    rw [children_eq] at ht
    cases hc : s.content k with
    | none =>
      rw [hc] at ht
      cases ht
    | some c =>
      rw [hc] at ht
      obtain ⟨value, hmem, hdecoded⟩ := hfilled.exists_member hc
      obtain ⟨w, hw, hdecodes⟩ := exists_mem_schemasUnder hdecoded ht
      have hdistinct : value.Distinct := Json.distinctMembers_iff.mp hvalue.2 _ hmem
      have hmember : P value := hP.member members hmembers _ hmem
      exact ih _ hmem k w hw (distinct_schemasUnder hdistinct hw)
        (hereditary_schemasUnder hP hmember hw) t hdecodes
  | other value _ h =>
    intro _ s hs
    cases value with
    | object members => exact absurd rfl (h members)
    | _ => cases hs

/-! ### Normal forms -/

theorem TidyNode.withNormalChildren (h : s.TidyNode P) : s.withNormalChildren.TidyNode P := by
  refine ⟨?_, h.keys, h.others, h.values⟩
  rw [propertyNames_withNormalChildren]
  exact h.names

theorem TidyNode.typePart (h : s.TidyNode P) : s.typePart.TidyNode P := by
  refine ⟨h.names, List.nodup_nil, fun _ hmem => absurd hmem List.not_mem_nil, ?_⟩
  intro value hmem
  refine h.values value (List.mem_append_left _ ?_)
  simpa [keptValues, Schema.typePart] using hmem

/-- What is left at a mixed node is its other keys. -/
theorem TidyNode.normalize_of_mixed (h : s.TidyNode P) (hmixed : s.Mixed) :
    s.normalize.TidyNode P := by
  have hextra : s.normalize.extra = s.extra := (sameFrame_normalize s).extra
  have hproperties : s.normalize.has .properties = false :=
    has_normalize_of_mixed hmixed (by decide)
  have henum : s.normalize.has .enum = false := has_normalize_of_mixed hmixed (by decide)
  simp only [has, Option.isSome_eq_false_iff, Option.isNone_iff_eq_none] at hproperties henum
  refine ⟨?_, ?_, ?_, ?_⟩
  · intro names hnames
    rw [propertyNames, hproperties] at hnames
    cases hnames
  · rw [hextra]
    exact h.keys
  · rw [hextra]
    exact h.others
  · intro value hmem
    rw [keptValues, henum, hextra] at hmem
    exact h.values value (List.mem_append_right _ hmem)

theorem Tidy.normalize (h : s.Tidy P) : s.normalize.Tidy P := by
  induction s using induction_children with
  | step s ih =>
    obtain ⟨hnode, hchildren⟩ := tidy_iff.mp h
    have hmap : ∀ k, ∀ c ∈ (s.children k).map Schema.normalize, c.Tidy P := by
      intro k c hc
      obtain ⟨c, hmem, rfl⟩ := List.mem_map.mp hc
      exact ih k c hmem (hchildren k c hmem)
    by_cases hmixed : s.Mixed
    · obtain ⟨k, hk⟩ := hmixed
      refine tidy_iff.mpr ⟨hnode.normalize_of_mixed ⟨k, hk⟩, fun k' c hc => ?_⟩
      rw [children_normalize_of_mixesAt hk] at hc
      split at hc
      · rcases List.mem_append.mp hc with hc | hc
        · exact hmap k c hc
        · -- the added member holds what the node held
          obtain rfl := List.mem_singleton.mp hc
          rw [normalize_of_not_mixed (not_mixed_typePart s)]
          refine tidy_iff.mpr ⟨hnode.typePart.withNormalChildren, fun word t ht => ?_⟩
          rw [children_withNormalChildren, children_typePart] at ht
          split at ht
          · cases ht
          · exact hmap word t ht
      · cases hc
    · rw [normalize_of_not_mixed hmixed]
      refine tidy_iff.mpr ⟨hnode.withNormalChildren, fun k c hc => ?_⟩
      rw [children_withNormalChildren] at hc
      exact hmap k c hc

/-! ### Written and read back -/

section
variable {k : Keyword} {c : k.Content}

theorem TidyNode.nodup_names (h : s.TidyNode P) {properties : List (String × Schema)}
    (hproperties : s.properties = some properties) : (properties.map Prod.fst).Nodup :=
  h.names _ (by rw [propertyNames, hproperties]; rfl)

theorem nodup_keys_map_toJson {properties : List (String × Schema)}
    (h : (properties.map Prod.fst).Nodup) :
    ((properties.map fun entry => (entry.1, entry.2.toJson)).map Prod.fst).Nodup := by
  rw [List.map_map]
  exact h

theorem TidyNode.enum (h : s.TidyNode P) {values : List Json} (henum : s.enum = some values) :
    ∀ value ∈ values, P value := by
  intro value hmem
  refine h.values value (List.mem_append_left _ ?_)
  rwa [henum]

theorem TidyNode.contentToJson (h : s.TidyNode P) (hP : Json.Structural P)
    (hc : s.content k = some c) (hbelow : ∀ t ∈ schemasIn k c, P t.toJson) :
    P (contentToJson k c) := by
  cases k with
  | reference | type => exact hP.string c
  | allOf | anyOf | oneOf => exact hP.array _ (List.forall_mem_map.mpr hbelow)
  | items => exact hbelow c (List.mem_singleton_self c)
  | properties =>
    refine hP.object _ (nodup_keys_map_toJson (h.nodup_names hc)) ?_
    exact List.forall_mem_map.mpr fun entry hentry =>
      hbelow entry.2 (List.mem_map_of_mem hentry)
  | required => exact hP.array _ (List.forall_mem_map.mpr fun name _ => hP.string name)
  | enum => exact hP.array _ (h.enum hc)
  | nullable => exact hP.bool c

theorem Tidy.toJson (h : s.Tidy P) (hP : Json.Structural P) : P s.toJson := by
  induction s using induction_children with
  | step s ih =>
    obtain ⟨hnode, hchildren⟩ := tidy_iff.mp h
    rw [toJson_eq]
    refine hP.object _ (nodup_keys_keywordMembers_append hnode.keys hnode.others) ?_
    intro member hmember
    rcases List.mem_append.mp hmember with hmember | hmember
    · obtain ⟨k, -, hcontent⟩ := mem_keywordMembers_iff.mp hmember
      obtain ⟨c, hc, hvalue⟩ := Option.map_eq_some_iff.mp hcontent
      rw [← hvalue]
      refine hnode.contentToJson hP hc fun t ht => ?_
      have hchild : t ∈ s.children k := by rwa [children_eq, hc]
      exact ih k t hchild (hchildren k t hchild)
    · exact hnode.values member.2 (List.mem_append_right _ (List.mem_map_of_mem hmember))

theorem decodesTo_map_toJson {properties : List (String × Schema)}
    (h : ∀ entry ∈ properties, Decoder.onValue decode entry.2.toJson = .ok entry.2) :
    DecodesTo decode (properties.map fun entry => (entry.1, entry.2.toJson)) properties := by
  rw [DecodesTo, List.forall₂_map_left_iff, List.forall₂_same]
  exact fun entry hentry => ⟨rfl, h entry hentry⟩

theorem list_onValue_map {α : Type} {d : Decoder α} {write : α → Json} {as : List α}
    (h : ∀ a ∈ as, d.onValue (write a) = .ok a) :
    (Decoder.list d).onValue (.array (as.map write)) = .ok as := by
  refine list_onValue_eq_ok_iff.mpr ⟨_, rfl, ?_⟩
  rw [List.forall₂_map_left_iff, List.forall₂_same]
  exact h

/-- What is written for the contents of a keyword is read as these contents. -/
theorem TidyNode.onValue_contentToJson (h : s.TidyNode Json.Distinct) (hc : s.content k = some c)
    (hbelow : ∀ t ∈ schemasIn k c, Decoder.onValue decode t.toJson = .ok t) :
    k.decoder.onValue (Schema.contentToJson k c) = .ok c := by
  cases k with
  | reference | type | nullable => rfl
  | allOf | anyOf | oneOf => exact list_onValue_map hbelow
  | items => exact hbelow c (List.mem_singleton_self c)
  | properties =>
    have hentries := decodesTo_map_toJson fun entry hentry =>
      hbelow entry.2 (List.mem_map_of_mem hentry)
    exact map_onValue_eq_ok_iff.mpr
      ⟨_, c, rfl, hentries, (Members.ofList_of_nodup (h.nodup_names hc)).symm⟩
  | required => exact list_onValue_map fun name _ => rfl
  | enum =>
    refine list_onValue_eq_ok_iff.mpr ⟨c, rfl, List.forall₂_same.mpr fun value hmem => ?_⟩
    rw [json_onValue, Node.toJson_ofJson value (h.enum hc value hmem)]

theorem toJson_ne_null (s : Schema) : s.toJson ≠ .null := by
  rw [toJson_eq]
  exact nofun

theorem contentToJson_ne_null (k : Keyword) (c : k.Content) :
    Schema.contentToJson k c ≠ .null := by
  cases k with
  | items => exact toJson_ne_null c
  | _ => exact nofun

/-- A tidy schema is read back from the value that is written for it. -/
theorem Tidy.decode_toJson (h : s.Tidy Json.Distinct) :
    Decoder.onValue decode s.toJson = .ok s := by
  induction s using induction_children with
  | step s ih =>
    obtain ⟨hnode, hchildren⟩ := tidy_iff.mp h
    have hdistinct := h.toJson Json.structural_distinct
    rw [toJson_eq] at hdistinct ⊢
    refine (decode_object_eq_ok_iff hdistinct).mpr ⟨fun k value hmem => ?_, fun k hk => ?_, ?_⟩
    · -- no other key is a keyword, so what stands under one was written for its contents
      rw [mem_keywordMembers_append_iff hnode.others] at hmem
      obtain ⟨c, hc, rfl⟩ := Option.map_eq_some_iff.mp hmem
      have hread := hnode.onValue_contentToJson hc fun t ht => by
        have hchild : t ∈ s.children k := by rwa [children_eq, hc]
        exact ih k t hchild (hchildren k t hchild)
      rw [optional_onValue, if_neg (contentToJson_ne_null k c), hread, hc]
      rfl
    · have habsent : s.content k = none := by
        cases hc : s.content k with
        | none => rfl
        | some c =>
          refine absurd (List.mem_map_of_mem (a := (k.name, Schema.contentToJson k c)) ?_) hk
          rw [mem_keywordMembers_append_iff hnode.others, hc]
          rfl
      rw [habsent, content_empty]
    · exact (filter_isOther_keywordMembers_append hnode.others).symm

end

end Schema
end ApiTypes
