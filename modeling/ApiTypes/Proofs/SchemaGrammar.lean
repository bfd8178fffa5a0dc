import ApiTypes.Proofs.SchemaRewriting

/-!
# The grammar of schemas

A value decodes as a schema if and only if it is an object in which every keyword
that is present and not null holds what the keyword admits, schemas again where
schemas stand under it.  `null` is no schema, so a list or a map of schemas with a
null in it is refused; the values of an enumeration and of other keys are free.
-/

namespace ApiTypes
open Json (Node Label Finish)

/-- What may stand under a keyword, schemas below it aside. -/
def Keyword.Admits : Keyword → Json → Prop
  | .reference, .string _ | .type, .string _ => True
  | .allOf, .array _ | .anyOf, .array _ | .oneOf, .array _ => True
  | .items, _ => True
  | .properties, .object _ => True
  | .required, .array values => ∀ value ∈ values, ∃ name, value = .string name
  | .enum, .array _ => True
  | .nullable, .bool _ => True
  | _, _ => False

/-- The values that are schemas. -/
inductive IsSchema : Json → Prop
  | object {members : List (String × Json)}
    (admitted : ∀ (k : Keyword) (value : Json), (k.name, value) ∈ members → value ≠ .null →
      k.Admits value)
    (below : ∀ (k : Keyword) (value : Json), (k.name, value) ∈ members → value ≠ .null →
      ∀ w ∈ Schema.schemasUnder k value, IsSchema w) :
    IsSchema (.object members)

/-! ### Decoding lists -/

section
variable {α : Type} {d : Decoder α}

theorem items_eq_ok_iff {items : List Json} {as : List α} (i : Nat) :
    Decoder.items d i (Node.itemsOfJson items) = .ok as ↔
      List.Forall₂ (fun item a => d.onValue item = .ok a) items as := by
  induction items generalizing i as with
  | nil => simp [Node.itemsOfJson, Decoder.items, eq_comm]
  | cons item rest ih =>
    rw [Node.itemsOfJson, Decoder.items, List.forall₂_cons_left_iff]
    simp only [bind_eq_ok_iff, within_eq_ok_iff, pure_eq_ok_iff, ih]
    constructor
    · rintro ⟨a, ha, as, has, rfl⟩
      exact ⟨a, as, ha, has, rfl⟩
    · rintro ⟨a, as, ha, has, rfl⟩
      exact ⟨a, ha, as, has, rfl⟩

theorem list_onValue_eq_ok_iff {value : Json} {as : List α} :
    (Decoder.list d).onValue value = .ok as ↔
      ∃ items, value = .array items ∧
        List.Forall₂ (fun item a => d.onValue item = .ok a) items as := by
  cases value with
  | array items =>
    have hlist : (Decoder.list d).onValue (.array items) =
        Decoder.items d 0 (Node.itemsOfJson items) := by
      rw [Decoder.onValue, Node.ofJson, Decoder.list]
      cases Decoder.items d 0 (Node.itemsOfJson items) <;> rfl
    rw [hlist, items_eq_ok_iff]
    constructor
    · intro h
      exact ⟨items, rfl, h⟩
    · rintro ⟨_, he, h⟩
      obtain rfl := Json.array.inj he
      exact h
  | _ =>
    constructor
    · intro h
      cases h
    · rintro ⟨_, he, -⟩
      cases he

end

theorem string_onValue_eq_ok_iff {value : Json} {s : String} :
    Decoder.string.onValue value = .ok s ↔ value = .string s := by
  cases value with
  | string t => simp [Decoder.onValue, Node.ofJson, Decoder.string]
  | _ =>
    constructor
    · intro h
      cases h
    · intro h
      cases h

theorem bool_onValue_eq_ok_iff {value : Json} {b : Bool} :
    Decoder.bool.onValue value = .ok b ↔ value = .bool b := by
  cases value with
  | bool t => simp [Decoder.onValue, Node.ofJson, Decoder.bool]
  | _ =>
    constructor
    · intro h
      cases h
    · intro h
      cases h

theorem json_onValue (value : Json) :
    Decoder.json.onValue value = .ok (Node.ofJson value).toJson :=
  json_eq_ok (fault?_ofJson value)

namespace Schema

/-- A keyword's decoder succeeds where the keyword admits the value and the schemas in it
decode. -/
theorem exists_decoder_iff (k : Keyword) (value : Json) :
    (∃ c, k.decoder.onValue value = .ok c) ↔
      k.Admits value ∧ ∀ w ∈ schemasUnder k value, ∃ s, Decoder.onValue decode w = .ok s := by
  have hlist : ∀ {α : Type} {d : Decoder α}, (∃ c, (Decoder.list d).onValue value = .ok c) ↔
      ∃ items, value = .array items ∧ ∀ w ∈ items, ∃ a, d.onValue w = .ok a := by
    intro α d
    simp only [list_onValue_eq_ok_iff, ← exists_forall₂_iff]
    constructor
    · rintro ⟨c, items, rfl, h⟩
      exact ⟨items, rfl, c, h⟩
    · rintro ⟨items, rfl, c, h⟩
      exact ⟨c, items, rfl, h⟩
  have hmap : (∃ c, (Decoder.map decode).onValue value = .ok c) ↔
      ∃ members, value = .object members ∧
        ∀ w ∈ members.map Prod.snd, ∃ s, Decoder.onValue decode w = .ok s := by
    simp only [map_onValue_eq_ok_iff, List.forall_mem_map, ← exists_decodesTo_iff]
    constructor
    · rintro ⟨c, members, entries, rfl, h, -⟩
      exact ⟨members, rfl, entries, h⟩
    · rintro ⟨members, rfl, entries, h⟩
      exact ⟨Members.ofList entries, members, entries, rfl, h, rfl⟩
  have hstring : (∃ c, Decoder.string.onValue value = .ok c) ↔ ∃ name, value = .string name :=
    exists_congr fun _ => string_onValue_eq_ok_iff
  have hbool : (∃ c, Decoder.bool.onValue value = .ok c) ↔ ∃ b, value = .bool b :=
    exists_congr fun _ => bool_onValue_eq_ok_iff
  cases k with
  | reference | type =>
    refine hstring.trans ?_
    cases value <;> simp [Keyword.Admits, schemasUnder]
  | allOf | anyOf | oneOf =>
    refine hlist.trans ?_
    cases value <;> simp [Keyword.Admits, schemasUnder]
  | items => simp [Keyword.decoder, Keyword.Admits, schemasUnder, Keyword.Content]
  | properties =>
    refine hmap.trans ?_
    cases value <;> simp [Keyword.Admits, schemasUnder]
  | required =>
    refine hlist.trans ?_
    cases value <;> simp [Keyword.Admits, schemasUnder, string_onValue_eq_ok_iff]
  | enum =>
    refine hlist.trans ?_
    cases value <;> simp [Keyword.Admits, schemasUnder, json_onValue]
  | nullable =>
    refine hbool.trans ?_
    cases value <;> simp [Keyword.Admits, schemasUnder]

/-! ### Decoding objects -/

/-- Whether a member stands under no keyword. -/
def isOther (member : String × Json) : Bool := (Keyword.ofName? member.1).isNone

theorem isOther_keyword (k : Keyword) (value : Json) : isOther (k.name, value) = false := by
  rw [isOther, Keyword.ofName?_eq_some_iff.mpr rfl]
  rfl

/-- What reading members makes of a schema: the value of every keyword among them is
decoded, the contents of the others are as before, and other members are added. -/
structure Filled (start : Schema) (members : List (String × Json)) (s : Schema) : Prop where
  present : ∀ (k : Keyword) (value : Json), (k.name, value) ∈ members →
    (Decoder.optional k.decoder).onValue value = .ok (s.content k)
  absent : ∀ k : Keyword, k.name ∉ members.map Prod.fst → s.content k = start.content k
  extra : s.extra = start.extra ++ members.filter isOther

theorem filled_nil_iff {start s : Schema} : Filled start [] s ↔ start = s := by
  constructor
  · intro h
    have hextra : s.extra = start.extra := h.extra.trans (List.append_nil _)
    exact ext_content (fun k => (h.absent k List.not_mem_nil).symm) hextra.symm
  · rintro rfl
    exact ⟨fun k value h => absurd h List.not_mem_nil, fun k _ => rfl, (List.append_nil _).symm⟩

theorem content_extra (s : Schema) (extra : List (String × Json)) (k : Keyword) :
    ({ s with extra } : Schema).content k = s.content k := by
  cases k <;> rfl

theorem filled_cons_other_iff {start s : Schema} {key : String} {value : Json}
    {rest : List (String × Json)} (hkey : Keyword.ofName? key = none) :
    Filled start ((key, value) :: rest) s ↔
      Filled { start with extra := start.extra ++ [(key, value)] } rest s := by
  have hne : ∀ k : Keyword, k.name ≠ key := fun k => (Keyword.ofName?_eq_none_iff.mp hkey k).symm
  have hother : isOther (key, value) = true := by rw [isOther, hkey]; rfl
  constructor
  · intro h
    refine ⟨fun k v hmem => h.present k v (List.mem_cons_of_mem _ hmem), fun k hk => ?_, ?_⟩
    · rw [content_extra]
      refine h.absent k ?_
      rw [List.map_cons, List.mem_cons, not_or]
      exact ⟨hne k, hk⟩
    · rw [h.extra, List.filter_cons_of_pos hother, List.append_assoc, List.singleton_append]
  · intro h
    refine ⟨fun k v hmem => ?_, fun k hk => ?_, ?_⟩
    · rcases List.mem_cons.mp hmem with he | hmem
      · exact absurd (congrArg Prod.fst he) (hne k)
      · exact h.present k v hmem
    · rw [List.map_cons, List.mem_cons, not_or] at hk
      rw [h.absent k hk.2, content_extra]
    · rw [h.extra, List.filter_cons_of_pos hother, List.append_assoc, List.singleton_append]

theorem filled_cons_keyword_iff {start s : Schema} {k : Keyword} {value : Json}
    {c : Option k.Content} {rest : List (String × Json)} (hk : k.name ∉ rest.map Prod.fst)
    (hc : (Decoder.optional k.decoder).onValue value = .ok c) :
    Filled start ((k.name, value) :: rest) s ↔ Filled (start.withContent k c) rest s := by
  have hother : ¬ isOther (k.name, value) = true := by simp [isOther_keyword]
  constructor
  · intro h
    have hhead := h.present k value List.mem_cons_self
    refine ⟨fun l v hmem => h.present l v (List.mem_cons_of_mem _ hmem), fun l hl => ?_, ?_⟩
    · by_cases hlk : l = k
      · subst hlk
        rw [content_withContent]
        exact Except.ok.inj (hhead.symm.trans hc)
      · rw [content_withContent_of_ne _ _ hlk]
        refine h.absent l ?_
        rw [List.map_cons, List.mem_cons, not_or]
        exact ⟨fun hname => hlk (Keyword.name_injective hname), hl⟩
    · rw [h.extra, List.filter_cons_of_neg hother, extra_withContent]
  · intro h
    refine ⟨fun l v hmem => ?_, fun l hl => ?_, ?_⟩
    · rcases List.mem_cons.mp hmem with he | hmem
      · obtain ⟨hname, rfl⟩ := Prod.mk.inj he
        obtain rfl := Keyword.name_injective hname
        rw [hc, h.absent l hk, content_withContent]
      · exact h.present l v hmem
    · rw [List.map_cons, List.mem_cons, not_or] at hl
      have hlk : l ≠ k := fun hlk => hl.1 (congrArg Keyword.name hlk)
      rw [h.absent l hl.2, content_withContent_of_ne _ _ hlk]
    · rw [h.extra, List.filter_cons_of_neg hother, extra_withContent]

theorem decodeMembers_eq_ok_iff {members : List (String × Json)}
    (hkeys : (members.map Prod.fst).Nodup) (hvalues : Json.DistinctMembers members) {p : Progress}
    (hunseen : ∀ k : Keyword, k.name ∈ members.map Prod.fst → k ∉ p.seen)
    (hextra : ∀ member ∈ members, member.1 ∉ p.schema.extra.map Prod.fst) {s : Schema} :
    (decodeMembers p (Node.membersOfJson members)).map Progress.schema = .ok s ↔
      Filled p.schema members s := by
  induction members generalizing p with
  | nil =>
    rw [filled_nil_iff, Node.membersOfJson, decodeMembers]
    exact ⟨Except.ok.inj, congrArg _⟩
  | cons member rest ih =>
    obtain ⟨key, value⟩ := member
    rw [List.map_cons, List.nodup_cons] at hkeys
    rw [List.forall_mem_cons] at hextra
    rw [Node.membersOfJson]
    cases hkey : Keyword.ofName? key with
    | none =>
      have hlabel : Keyword.ofName? (Label.mk key 0).key = none := hkey
      rw [decodeMembers_other hlabel, json_eq_ok (fault?_ofJson value),
        Node.toJson_ofJson value hvalues.1, filled_cons_other_iff hkey]
      rw [← Members.insert_of_notMem hextra.1]
      refine ih hkeys.2 hvalues.2 (fun k hk => hunseen k (List.mem_cons_of_mem _ hk)) ?_
      intro member hmember
      show member.1 ∉ (Members.insert key value p.schema.extra).map Prod.fst
      rw [Members.insert_of_notMem hextra.1, List.map_append, List.mem_append, not_or]
      refine ⟨hextra.2 member hmember, ?_⟩
      intro hmem
      have hname : member.1 = key := List.mem_singleton.mp hmem
      have hrest : member.1 ∈ rest.map Prod.fst := List.mem_map_of_mem hmember
      exact hkeys.1 (hname ▸ hrest)
    | some k =>
      obtain rfl := Keyword.ofName?_eq_some_iff.mp hkey
      have hlabel : Keyword.ofName? (Label.mk k.name 0).key = some k := hkey
      rw [decodeMembers_keyword hlabel, checkFresh_of_notMem (hunseen k List.mem_cons_self)]
      cases hc : Decoder.optional k.decoder (Node.ofJson value) with
      | error failure =>
        constructor
        · intro h
          cases h
        · intro h
          have hhead := h.present k value List.mem_cons_self
          rw [Decoder.onValue, hc] at hhead
          cases hhead
      | ok c =>
        rw [filled_cons_keyword_iff hkeys.1 hc]
        refine ih hkeys.2 hvalues.2 (fun l hl => ?_) ?_
        · rw [List.mem_cons, not_or]
          refine ⟨?_, hunseen l (List.mem_cons_of_mem _ hl)⟩
          rintro rfl
          exact hkeys.1 hl
        · show ∀ member ∈ rest, member.1 ∉ (p.schema.withContent k c).extra.map Prod.fst
          rw [extra_withContent]
          exact hextra.2

theorem decode_object_eq_ok_iff {members : List (String × Json)}
    (h : (Json.object members).Distinct) {s : Schema} :
    Decoder.onValue decode (.object members) = .ok s ↔ Filled {} members s := by
  rw [onValue_object]
  exact decodeMembers_eq_ok_iff h.1 h.2 (fun _ _ => List.not_mem_nil)
    fun _ _ => List.not_mem_nil

theorem exists_filled_iff {members : List (String × Json)} (hkeys : (members.map Prod.fst).Nodup)
    {start : Schema} :
    (∃ s, Filled start members s) ↔ ∀ (k : Keyword) (value : Json), (k.name, value) ∈ members →
      ∃ c, (Decoder.optional k.decoder).onValue value = .ok c := by
  constructor
  · rintro ⟨s, h⟩ k value hmem
    exact ⟨s.content k, h.present k value hmem⟩
  · intro h
    induction members generalizing start with
    | nil => exact ⟨start, filled_nil_iff.mpr rfl⟩
    | cons member rest ih =>
      obtain ⟨key, value⟩ := member
      rw [List.map_cons, List.nodup_cons] at hkeys
      have hrest : ∀ (k : Keyword) (v : Json), (k.name, v) ∈ rest →
          ∃ c, (Decoder.optional k.decoder).onValue v = .ok c :=
        fun k v hmem => h k v (List.mem_cons_of_mem _ hmem)
      cases hkey : Keyword.ofName? key with
      | none =>
        obtain ⟨s, hs⟩ := ih hkeys.2 hrest
        exact ⟨s, (filled_cons_other_iff hkey).mpr hs⟩
      | some k =>
        obtain rfl := Keyword.ofName?_eq_some_iff.mp hkey
        obtain ⟨c, hc⟩ := h k value List.mem_cons_self
        obtain ⟨s, hs⟩ := ih hkeys.2 hrest
        exact ⟨s, (filled_cons_keyword_iff hkeys.1 hc).mpr hs⟩

theorem exists_optional_iff (k : Keyword) (value : Json) :
    (∃ c, (Decoder.optional k.decoder).onValue value = .ok c) ↔
      (value ≠ .null → ∃ c, k.decoder.onValue value = .ok c) := by
  rw [optional_onValue]
  by_cases hnull : value = .null
  · simp [hnull]
  · rw [if_neg hnull]
    cases k.decoder.onValue value <;> simp [Except.map, hnull]

/-- The decoder accepts exactly the values that are schemas. -/
theorem isSchema_iff (value : Json) (hvalue : value.Distinct) :
    (∃ s, Decoder.onValue decode value = .ok s) ↔ IsSchema value := by
  induction value, hvalue using induction_schemasUnder with
  | object members hvalue ih =>
    have hbelow : ∀ (k : Keyword) (value : Json), (k.name, value) ∈ members →
        ∀ w ∈ schemasUnder k value,
          ((∃ s, Decoder.onValue decode w = .ok s) ↔ IsSchema w) := by
      intro k value hmem w hw
      have hmemberValue := Json.distinctMembers_iff.mp hvalue.2 _ hmem
      exact ih _ hmem k w hw (distinct_schemasUnder hmemberValue hw)
    simp only [decode_object_eq_ok_iff hvalue, exists_filled_iff hvalue.1, exists_optional_iff,
      exists_decoder_iff]
    constructor
    · intro h
      refine .object (fun k value hmem hnull => (h k value hmem hnull).1) ?_
      intro k value hmem hnull w hw
      exact (hbelow k value hmem w hw).mp ((h k value hmem hnull).2 w hw)
    · rintro ⟨hadmitted, hschemas⟩ k value hmem hnull
      refine ⟨hadmitted k value hmem hnull, fun w hw => ?_⟩
      exact (hbelow k value hmem w hw).mpr (hschemas k value hmem hnull w hw)
  | other value _ h =>
    constructor
    · rintro ⟨s, hs⟩
      cases value with
      | object members => exact absurd rfl (h members)
      | _ => cases hs
    · rintro ⟨-, -⟩
      exact absurd rfl (h _)

end Schema

end ApiTypes
