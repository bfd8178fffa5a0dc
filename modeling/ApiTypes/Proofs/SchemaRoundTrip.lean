import ApiTypes.Proofs.TidySchemas

/-!
# Writing what was decoded

A decoded schema is written with its keywords in their fixed order and then its
other keys, at every node.  `arranged` puts a value into this order and leaves away
keywords that are null.  A schema that a value decodes to is written as the arranged
value, and decoding that gives the schema again.
-/

namespace ApiTypes.Schema
open Json (Node Label Finish)

/-- The members of a schema object as they are written: the keywords that are present and
not null in their fixed order, then the other members. -/
def arrange : Rewriting := fun members =>
  Keyword.all.flatMap (fun k =>
    optionalMember k ((Members.find? members k.name).filter fun value => value != .null)) ++
  members.filter isOther

/-- The value with the members of every schema object arranged. -/
abbrev arranged : Json → Json := rewrite arrange

/-! ### Arranged members -/

/-- What stands under a keyword among arranged members. -/
theorem mem_arrange_keyword_iff {members : List (String × Json)} {k : Keyword} {value : Json} :
    (k.name, value) ∈ arrange members ↔
      Members.find? members k.name = some value ∧ value ≠ .null := by
  refine (mem_keywordMembers_append_iff (isOther_of_mem_filter members)).trans ?_
  simp [Option.filter_eq_some_iff]

theorem filter_isOther_arrange (members : List (String × Json)) :
    (arrange members).filter isOther = members.filter isOther :=
  filter_isOther_keywordMembers_append (isOther_of_mem_filter members)

theorem mem_of_mem_arrange {members : List (String × Json)} (hkeys : (members.map Prod.fst).Nodup)
    {member : String × Json} (h : member ∈ arrange members) : member ∈ members := by
  obtain ⟨key, value⟩ := member
  cases hkey : Keyword.ofName? key with
  | none =>
    have hother : isOther (key, value) = true := by rw [isOther, hkey]; rfl
    have hmem : (key, value) ∈ (arrange members).filter isOther := List.mem_filter.mpr ⟨h, hother⟩
    rw [filter_isOther_arrange] at hmem
    exact (List.mem_filter.mp hmem).1
  | some k =>
    obtain rfl := Keyword.ofName?_eq_some_iff.mp hkey
    exact (Members.find?_eq_some_iff_mem hkeys).mp (mem_arrange_keyword_iff.mp h).1

theorem nodup_keys_arrange {members : List (String × Json)}
    (hkeys : (members.map Prod.fst).Nodup) : ((arrange members).map Prod.fst).Nodup :=
  nodup_keys_keywordMembers_append (hkeys.sublist (List.filter_sublist.map Prod.fst))
    (isOther_of_mem_filter members)

theorem find?_rewriteMembers (f : Rewriting) (members : List (String × Json)) (k : Keyword) :
    Members.find? (rewriteMembers f members) k.name =
      (Members.find? members k.name).map (rewriteUnder f k) := by
  rw [rewriteMembers_eq_map, Members.find?, Members.find?]
  induction members with
  | nil => rfl
  | cons member rest ih =>
    obtain ⟨key, value⟩ := member
    rw [List.map_cons, List.lookup_cons, List.lookup_cons]
    by_cases hkey : k.name = key
    · subst hkey
      rw [rewriteMember_keyword, beq_self_eq_true]
      rfl
    · have hne : (k.name == key) = false := beq_eq_false_iff_ne.mpr hkey
      rw [show (rewriteMember f (key, value)).1 = key from rfl, hne]
      exact ih

theorem filter_isOther_rewriteMembers (f : Rewriting) (members : List (String × Json)) :
    (rewriteMembers f members).filter isOther = members.filter isOther := by
  rw [rewriteMembers_eq_map]
  induction members with
  | nil => rfl
  | cons member rest ih =>
    obtain ⟨key, value⟩ := member
    rw [List.map_cons]
    cases hkey : Keyword.ofName? key with
    | none =>
      have hother : isOther (key, value) = true := by rw [isOther, hkey]; rfl
      rw [rewriteMember_other hkey, List.filter_cons_of_pos hother,
        List.filter_cons_of_pos hother, ih]
    | some k =>
      obtain rfl := Keyword.ofName?_eq_some_iff.mp hkey
      rw [rewriteMember_keyword, List.filter_cons_of_neg (by simp [isOther_keyword]),
        List.filter_cons_of_neg (by simp [isOther_keyword]), ih]

/-! ### Arranged values have distinct keys -/

theorem distinct_rewriteUnder {f : Rewriting} {k : Keyword} {value : Json}
    (hvalue : value.Distinct) (h : ∀ w ∈ schemasUnder k value, (rewrite f w).Distinct) :
    (rewriteUnder f k value).Distinct := by
  have hlist : (∀ items, value = .array items → ∀ w ∈ items, (rewrite f w).Distinct) →
      (rewriteList f value).Distinct := by
    intro hitems
    cases value with
    | array items =>
      rw [rewriteList, rewriteItems_eq_map]
      refine Json.distinctItems_iff.mpr fun w hw => ?_
      obtain ⟨item, hitem, rfl⟩ := List.mem_map.mp hw
      exact hitems items rfl item hitem
    | _ => exact hvalue
  cases k with
  | reference | type | required | enum | nullable => exact hvalue
  | allOf | anyOf | oneOf => exact hlist (by rintro items rfl; exact h)
  | items => exact h value (List.mem_singleton_self value)
  | properties =>
    cases value with
    | object members =>
      rw [rewriteUnder, rewriteMap, rewriteNamed_eq_map]
      refine ⟨?_, Json.distinctMembers_iff.mpr fun w hw => ?_⟩
      · rw [List.map_map]
        exact hvalue.1
      · obtain ⟨member, hmember, rfl⟩ := List.mem_map.mp hw
        exact h member.2 (List.mem_map_of_mem hmember)
    | _ => exact hvalue

theorem distinct_arranged (value : Json) (hvalue : value.Distinct) :
    (arranged value).Distinct := by
  induction value, hvalue using induction_schemasUnder with
  | object members hvalue ih =>
    have hkeys : ((rewriteMembers arrange members).map Prod.fst).Nodup := by
      rw [keys_rewriteMembers]
      exact hvalue.1
    refine ⟨nodup_keys_arrange hkeys, Json.distinctMembers_iff.mpr fun member hmember => ?_⟩
    have hmem := mem_of_mem_arrange hkeys hmember
    rw [rewriteMembers_eq_map] at hmem
    obtain ⟨⟨key, v⟩, hv, rfl⟩ := List.mem_map.mp hmem
    have hdistinct : v.Distinct := Json.distinctMembers_iff.mp hvalue.2 _ hv
    cases hkey : Keyword.ofName? key with
    | none =>
      rw [rewriteMember_other hkey]
      exact hdistinct
    | some k =>
      obtain rfl := Keyword.ofName?_eq_some_iff.mp hkey
      rw [rewriteMember_keyword]
      refine distinct_rewriteUnder hdistinct fun w hw => ?_
      exact ih _ hv k w hw (distinct_schemasUnder hdistinct hw)
  | other value hvalue h =>
    cases value with
    | object members => exact absurd rfl (h members)
    | _ => exact hvalue

/-! ### Writing -/

section
variable {f : Rewriting} {value : Json}

theorem map_toJson_of_forall₂ {items : List Json} {schemas : List Schema}
    (h : List.Forall₂ (fun item s => Decoder.onValue decode item = .ok s) items schemas)
    (hbelow : ∀ w ∈ items, ∀ s, Decoder.onValue decode w = .ok s → s.toJson = rewrite f w) :
    schemas.map toJson = items.map (rewrite f) := by
  induction h with
  | nil => rfl
  | cons hhead _ ih =>
    rw [List.forall_mem_cons] at hbelow
    rw [List.map_cons, List.map_cons, hbelow.1 _ hhead, ih hbelow.2]

theorem map_toJson_of_decodesTo {members : List (String × Json)}
    {entries : List (String × Schema)} (h : DecodesTo decode members entries)
    (hbelow : ∀ member ∈ members, ∀ s, Decoder.onValue decode member.2 = .ok s →
      s.toJson = rewrite f member.2) :
    (entries.map fun entry => (entry.1, entry.2.toJson)) =
      members.map fun member => (member.1, rewrite f member.2) := by
  induction h with
  | nil => rfl
  | cons hhead _ ih =>
    rw [List.forall_mem_cons] at hbelow
    rw [List.map_cons, List.map_cons, hbelow.1 _ hhead.2, hhead.1, ih hbelow.2]

theorem map_string_of_forall₂ {items : List Json} {names : List String}
    (h : List.Forall₂ (fun item name => Decoder.string.onValue item = .ok name) items names) :
    names.map Json.string = items := by
  induction h with
  | nil => rfl
  | cons hhead _ ih => rw [List.map_cons, ih, string_onValue_eq_ok_iff.mp hhead]

theorem keys_of_decodesTo {α : Type} {d : Decoder α} {members : List (String × Json)}
    {entries : List (String × α)} (h : DecodesTo d members entries) :
    entries.map Prod.fst = members.map Prod.fst := by
  induction h with
  | nil => rfl
  | cons hhead _ ih => rw [List.map_cons, List.map_cons, hhead.1, ih]

/-- The contents of a keyword are written as the value they were decoded from, with the
schemas in it written in their turn. -/
theorem contentToJson_decoder {k : Keyword} {c : k.Content} (hvalue : value.Distinct)
    (hbelow : ∀ w ∈ schemasUnder k value, ∀ s, Decoder.onValue decode w = .ok s →
      s.toJson = rewrite f w)
    (h : k.decoder.onValue value = .ok c) : contentToJson k c = rewriteUnder f k value := by
  have hlist : ∀ schemas : List Schema, (Decoder.list decode).onValue value = .ok schemas →
      (∀ items, value = .array items → ∀ w ∈ items, ∀ s, Decoder.onValue decode w = .ok s →
        s.toJson = rewrite f w) →
      Json.array (schemas.map toJson) = rewriteList f value := by
    intro schemas hschemas hitems
    obtain ⟨items, rfl, hitem⟩ := list_onValue_eq_ok_iff.mp hschemas
    rw [rewriteList, rewriteItems_eq_map, map_toJson_of_forall₂ hitem (hitems items rfl)]
  cases k with
  | reference | type => exact (string_onValue_eq_ok_iff.mp h).symm
  | allOf | anyOf | oneOf => exact hlist c h (by rintro items rfl; exact hbelow)
  | items => exact hbelow value (List.mem_singleton_self value) c h
  | properties =>
    obtain ⟨members, entries, rfl, hentries, rfl⟩ := map_onValue_eq_ok_iff.mp h
    have hkeys : (entries.map Prod.fst).Nodup := by
      rw [keys_of_decodesTo hentries]
      exact hvalue.1
    show Json.object _ = rewriteMap f (.object members)
    rw [Members.ofList_of_nodup hkeys, rewriteMap, rewriteNamed_eq_map,
      map_toJson_of_decodesTo hentries fun member hmember =>
        hbelow member.2 (List.mem_map_of_mem hmember)]
  | required =>
    obtain ⟨items, rfl, hitems⟩ := list_onValue_eq_ok_iff.mp h
    exact congrArg Json.array (map_string_of_forall₂ hitems)
  | enum =>
    obtain ⟨items, rfl, hitems⟩ := list_onValue_eq_ok_iff.mp h
    exact congrArg Json.array (eq_of_forall₂_json hvalue hitems)
  | nullable => exact (bool_onValue_eq_ok_iff.mp h).symm

/-- A keyword is written where its value was not null. -/
theorem map_contentToJson {k : Keyword} {c : Option k.Content} (hvalue : value.Distinct)
    (hbelow : ∀ w ∈ schemasUnder k value, ∀ s, Decoder.onValue decode w = .ok s →
      s.toJson = rewrite f w)
    (h : (Decoder.optional k.decoder).onValue value = .ok c) :
    c.map (contentToJson k) = (some (rewriteUnder f k value)).filter fun v => v != .null := by
  rw [optional_onValue] at h
  by_cases hnull : value = .null
  · rw [if_pos hnull] at h
    have hkept : (rewriteUnder f k value != .null) = false := by
      simp [rewriteUnder_eq_null_iff, hnull]
    rw [← Except.ok.inj h, Option.filter_some, hkept]
    rfl
  · rw [if_neg hnull] at h
    have hkept : (rewriteUnder f k value != .null) = true := by
      simp [rewriteUnder_eq_null_iff, hnull]
    cases hc : k.decoder.onValue value with
    | error failure =>
      rw [hc] at h
      cases h
    | ok content =>
      rw [hc] at h
      obtain rfl := Except.ok.inj h
      rw [Option.map_some, contentToJson_decoder hvalue hbelow hc, Option.filter_some, hkept]
      rfl

end

/-- A schema is written as the value it was decoded from, arranged. -/
theorem toJson_of_decode (value : Json) (hvalue : value.Distinct) :
    ∀ s : Schema, Decoder.onValue decode value = .ok s → s.toJson = arranged value := by
  induction value, hvalue using induction_schemasUnder with
  | object members hvalue ih =>
    intro s h
    have hfilled := (decode_object_eq_ok_iff hvalue).mp h
    have hcontent : ∀ k : Keyword, (s.content k).map (contentToJson k) =
        (Members.find? (rewriteMembers arrange members) k.name).filter fun v => v != .null := by
      intro k
      rw [find?_rewriteMembers]
      cases hfind : Members.find? members k.name with
      | none =>
        rw [hfilled.absent k (Members.find?_eq_none_iff.mp hfind), content_empty]
        rfl
      | some value =>
        have hmem := (Members.find?_eq_some_iff_mem hvalue.1).mp hfind
        have hdistinct : value.Distinct := Json.distinctMembers_iff.mp hvalue.2 _ hmem
        refine map_contentToJson hdistinct (fun w hw => ?_) (hfilled.present k value hmem)
        exact ih _ hmem k w hw (distinct_schemasUnder hdistinct hw)
    have hextra : s.extra = (rewriteMembers arrange members).filter isOther :=
      hfilled.extra.trans (filter_isOther_rewriteMembers arrange members).symm
    rw [toJson_eq, keywordMembers, arranged, rewrite, arrange, hextra]
    simp only [hcontent]
  | other value _ h =>
    intro s hs
    cases value with
    | object members => exact absurd rfl (h members)
    | _ => cases hs

/-! ### Reading again -/

/-- An arranged value decodes to the schema that the value decodes to. -/
theorem decode_arranged (value : Json) (hvalue : value.Distinct) :
    ∀ s : Schema, Decoder.onValue decode value = .ok s →
      Decoder.onValue decode (arranged value) = .ok s := by
  intro s h
  have htidy := tidy_of_decode Json.hereditary_distinct value hvalue hvalue s h
  rw [← toJson_of_decode value hvalue s h]
  exact htidy.decode_toJson

/-- A value decodes if and only if it is a schema by the grammar.  The schema it decodes to
is written as the text of the arranged value, which has no key twice and decodes to the
same schema. -/
theorem decode_grammar (value : Json) (h : value.Distinct) :
    ((∃ s, Decoder.onValue decode value = .ok s) ↔ IsSchema value) ∧
    ∀ s : Schema, Decoder.onValue decode value = .ok s →
      s.text = (arranged value).compact ∧ (arranged value).Distinct ∧
        Decoder.onValue decode (arranged value) = .ok s := by
  refine ⟨isSchema_iff value h, fun s hs => ⟨?_, distinct_arranged value h, ?_⟩⟩
  · rw [text, toJson_of_decode value h s hs]
  · exact decode_arranged value h s hs

/-- A schema with nulls in all places, its keywords out of order at two levels. -/
def scattered : Json :=
  .object [("x-null", .null), ("required", .array [.string "b"]), ("items", .null),
    ("properties", .object [("b", .object [("note", .number (.integer 1)),
      ("type", .string "string"), ("$ref", .string "#/B")]), ("a", .object [])]),
    ("enum", .array [.null, .object [("type", .null)]])]

theorem decode_grammar_of_scattered :
    scattered.Distinct ∧ IsSchema scattered ∧ ∃ s, Decoder.onValue decode scattered = .ok s ∧
      s.text = "\x7b\"properties\":\x7b\"b\":\x7b\"$ref\":\"#/B\",\"type\":\"string\"," ++
        "\"note\":1\x7d,\"a\":\x7b\x7d\x7d,\"required\":[\"b\"]," ++
        "\"enum\":[null,\x7b\"type\":null\x7d],\"x-null\":null\x7d" ∧
      Decoder.onValue decode (arranged scattered) = .ok s := by
  have h : scattered.Distinct := by decide +kernel
  obtain ⟨s, hs⟩ : ∃ s, Decoder.onValue decode scattered = .ok s := ⟨_, rfl⟩
  obtain ⟨hgrammar, hwritten⟩ := decode_grammar scattered h
  obtain ⟨htext, -, hagain⟩ := hwritten s hs
  refine ⟨h, hgrammar.mp ⟨s, hs⟩, s, hs, ?_, hagain⟩
  rw [htext]
  decide +kernel

/-- Not every list under a keyword refuses nulls: the values of an enumeration are free. -/
theorem null_in_enumeration :
    ¬ ∀ members : List (String × Json), (∃ s, Decoder.onValue decode (.object members) = .ok s) →
      ∀ (k : Keyword) (values : List Json), (k.name, .array values) ∈ members →
        Json.null ∉ values := by
  intro h
  have hdecodes : ∃ s, Decoder.onValue decode (.object [("enum", .array [.null])]) = .ok s :=
    ⟨_, rfl⟩
  exact h _ hdecodes .enum [.null] List.mem_cons_self List.mem_cons_self

end ApiTypes.Schema
