import ApiTypes.Proofs.PlainSchema

/-!
# Values without annotations

What a schema object holds besides its keywords is an annotation, and so is a
`nullable` that is false.  A value without its annotations decodes to the plain
form of what the value decodes to, and fails where the value fails, with the same
failure.
-/

namespace ApiTypes.Schema
open Json (Node Label Finish)

/-- Whether a member of a schema object is no annotation. -/
def isEssential (member : String × Json) : Bool :=
  match Keyword.ofName? member.1 with
  | none => false
  | some .nullable => member.2 != .bool false
  | some _ => true

/-- A value that stands for a schema, without annotations in any schema object. -/
abbrev plainValue : Json → Json := rewrite (List.filter isEssential)

/-- A value that stands for a map of schemas, without annotations. -/
abbrev plainMap : Json → Json := rewriteMap (List.filter isEssential)

theorem isEssential_other {key : String} (h : Keyword.ofName? key = none) (value : Json) :
    isEssential (key, value) = false := by
  rw [isEssential, h]

theorem isEssential_keyword (k : Keyword) (value : Json) :
    isEssential (k.name, value) = true ↔ ¬ (k = .nullable ∧ value = .bool false) := by
  rw [isEssential, Keyword.ofName?_eq_some_iff.mpr rfl]
  cases k <;> simp

theorem isEssential_rewriteMember (f : Rewriting) (member : String × Json) :
    isEssential (rewriteMember f member) = isEssential member := by
  obtain ⟨key, value⟩ := member
  cases hkey : Keyword.ofName? key with
  | none => rw [rewriteMember_other hkey]
  | some k =>
    obtain rfl := Keyword.ofName?_eq_some_iff.mp hkey
    rw [rewriteMember_keyword, Bool.eq_iff_iff, isEssential_keyword, isEssential_keyword]
    cases k <;> simp [rewriteUnder]

/-- Two schema objects are the same without annotations if and only if their members that
are none are, one by one. -/
theorem plainValue_object_eq_iff (xs ys : List (String × Json)) :
    plainValue (.object xs) = plainValue (.object ys) ↔
      List.Forall₂ (fun x y => rewriteMember (List.filter isEssential) x =
          rewriteMember (List.filter isEssential) y)
        (xs.filter isEssential) (ys.filter isEssential) := by
  have hmembers : ∀ members : List (String × Json),
      plainValue (.object members) = .object
        ((members.filter isEssential).map (rewriteMember (List.filter isEssential))) := by
    intro members
    rw [plainValue, rewrite, rewriteMembers_eq_map, List.filter_map]
    congr 3
    funext member
    exact isEssential_rewriteMember _ member
  rw [hmembers, hmembers, Json.object.injEq, ← List.forall₂_eq_eq_eq, List.forall₂_map_left_iff,
    List.forall₂_map_right_iff]

/-! ### Decoding -/

theorem plain_extra (s : Schema) (extra : List (String × Json)) :
    ({ s with extra } : Schema).plain = s.plain := by
  obtain ⟨r, allOf, anyOf, oneOf, t, i, p, q, e, n, x⟩ := s
  rfl

theorem withContent_self {s : Schema} {k : Keyword} {c : Option k.Content} (h : s.content k = c) :
    s.withContent k c = s := by
  refine ext_content (fun l => ?_) (extra_withContent s k c)
  by_cases hl : l = k
  · subst hl
    rw [content_withContent, h]
  · rw [content_withContent_of_ne s c hl]

/-- The contents under a member that is no annotation are the plain ones as soon as the
schemas in them are. -/
theorem mapContent_eq_plainContent {k : Keyword} {value : Json} {c : Option k.Content}
    (hessential : isEssential (k.name, value) = true)
    (h : (Decoder.optional k.decoder).onValue value = .ok c) :
    c.map (mapContent plain k) = plainContent k c := by
  rw [isEssential_keyword] at hessential
  cases k with
  | nullable =>
    cases value with
    | null =>
      obtain rfl := Except.ok.inj h
      rfl
    | bool b =>
      obtain rfl := Except.ok.inj h
      have hb : b = true := by simpa using hessential
      rw [hb]
      rfl
    | _ => cases h
  | _ => rfl

/-- Reading members and reading them without annotations, side by side: what has been read
is alike, and the keywords among the keys to come are new to both. -/
structure Alongside (keys : List String) (p q : Progress) : Prop where
  schema : q.schema = p.schema.plain
  unseen : ∀ k : Keyword, k.name ∈ keys → k ∉ p.seen ∧ k ∉ q.seen
  unset : ∀ k : Keyword, k.name ∈ keys → p.schema.content k = none

namespace Alongside
variable {key : String} {keys : List String} {p q : Progress} {k : Keyword}

theorem other (h : Alongside (key :: keys) p q) (extra : List (String × Json)) :
    Alongside keys { p with schema := { p.schema with extra } } q := by
  refine ⟨?_, fun k hk => h.unseen k (List.mem_cons_of_mem key hk), fun k hk => ?_⟩
  · rw [h.schema, plain_extra]
  · have hnone := h.unset k (List.mem_cons_of_mem key hk)
    rw [← hnone]
    cases k <;> rfl

theorem unset_withContent (h : Alongside (k.name :: keys) p q) (hk : k.name ∉ keys)
    (c : Option k.Content) (l : Keyword) (hl : l.name ∈ keys) :
    l ≠ k ∧ (p.schema.withContent k c).content l = none := by
  have hne : l ≠ k := by
    rintro rfl
    exact hk hl
  rw [content_withContent_of_ne _ _ hne]
  exact ⟨hne, h.unset l (List.mem_cons_of_mem _ hl)⟩

theorem kept (h : Alongside (k.name :: keys) p q) (hk : k.name ∉ keys) (c : Option k.Content) :
    Alongside keys ⟨p.schema.withContent k c, k :: p.seen⟩
      ⟨q.schema.withContent k (plainContent k c), k :: q.seen⟩ := by
  refine ⟨?_, fun l hl => ?_, fun l hl => (h.unset_withContent hk c l hl).2⟩
  · rw [h.schema, plain_withContent]
  · have hne := (h.unset_withContent hk c l hl).1
    have hnew := h.unseen l (List.mem_cons_of_mem _ hl)
    simp [hne, hnew]

theorem dropped (h : Alongside (Keyword.nullable.name :: keys) p q)
    (hk : Keyword.nullable.name ∉ keys) :
    Alongside keys ⟨p.schema.withContent .nullable (some false), .nullable :: p.seen⟩ q := by
  have hnone : p.schema.plain.content .nullable = plainContent .nullable (some false) := by
    rw [content_plain, h.unset .nullable List.mem_cons_self]
    rfl
  refine ⟨?_, fun l hl => ?_, fun l hl => (h.unset_withContent hk _ l hl).2⟩
  · rw [plain_withContent, withContent_self hnone, h.schema]
  · have hne := (h.unset_withContent hk (some false) l hl).1
    have hnew := h.unseen l (List.mem_cons_of_mem _ hl)
    simp [hne, hnew]

end Alongside

theorem decodeMembers_plain {members : List (String × Json)}
    (hkeys : (members.map Prod.fst).Nodup)
    (h : ∀ member ∈ members, ∀ (k : Keyword), ∀ w ∈ schemasUnder k member.2,
      Decoder.onValue decode (plainValue w) = (Decoder.onValue decode w).map plain)
    {p q : Progress} (hpq : Alongside (members.map Prod.fst) p q) :
    (decodeMembers q (Node.membersOfJson
        ((members.map (rewriteMember (List.filter isEssential))).filter isEssential))).map
          Progress.schema =
      (decodeMembers p (Node.membersOfJson members)).map fun r => r.schema.plain := by
  -- a member goes at once or is read on both sides; `Alongside` carries what came before
  induction members generalizing p q with
  | nil =>
    rw [List.map_nil, List.filter_nil, Node.membersOfJson, decodeMembers, decodeMembers]
    exact congrArg Except.ok hpq.schema
  | cons member rest ih =>
    obtain ⟨key, value⟩ := member
    rw [List.forall_mem_cons] at h
    rw [List.map_cons, List.nodup_cons] at hkeys
    rw [List.map_cons, Node.membersOfJson]
    cases hkey : Keyword.ofName? key with
    | none =>
      have hlabel : Keyword.ofName? (Label.mk key 0).key = none := hkey
      rw [rewriteMember_other hkey, List.filter_cons_of_neg (by simp [isEssential_other hkey]),
        decodeMembers_other hlabel, json_eq_ok (fault?_ofJson value)]
      exact ih hkeys.2 h.2 (hpq.other _)
    | some k =>
      obtain rfl := Keyword.ofName?_eq_some_iff.mp hkey
      have hlabel : Keyword.ofName? (Label.mk k.name 0).key = some k := hkey
      have hunseen := hpq.unseen k List.mem_cons_self
      rw [rewriteMember_keyword, decodeMembers_keyword hlabel, checkFresh_of_notMem hunseen.1]
      cases hessential : isEssential (k.name, value) with
      | false =>
        -- the one keyword that goes is `nullable` with false, which plain schemas do not keep
        have hannotation := mt (isEssential_keyword k value).mpr (by simp [hessential])
        obtain ⟨rfl, rfl⟩ := not_not.mp hannotation
        rw [List.filter_cons_of_neg (by simp; rfl)]
        exact ih hkeys.2 h.2 (hpq.dropped hkeys.1)
      | true =>
        have hvalue : Decoder.optional k.decoder
              (Node.ofJson (rewriteUnder (List.filter isEssential) k value)) =
              (Decoder.optional k.decoder (Node.ofJson value)).map
                (Option.map (mapContent plain k)) :=
          optional_onValue_rewriteUnder (h.1 k)
        have hkept :
            isEssential (k.name, rewriteUnder (List.filter isEssential) k value) = true := by
          rw [← rewriteMember_keyword, isEssential_rewriteMember, hessential]
        rw [List.filter_cons_of_pos hkept, Node.membersOfJson, decodeMembers_keyword hlabel,
          checkFresh_of_notMem hunseen.2, hvalue]
        cases hc : Decoder.optional k.decoder (Node.ofJson value) with
        | error failure => rfl
        | ok c =>
          have hcontent := mapContent_eq_plainContent hessential hc
          refine ih hkeys.2 h.2 ?_
          rw [hcontent]
          exact hpq.kept hkeys.1 c

/-- A value without annotations decodes to a schema without annotations. -/
theorem decode_plainValue (value : Json) (hvalue : value.Distinct) :
    Decoder.onValue decode (plainValue value) = (Decoder.onValue decode value).map plain := by
  induction value, hvalue using induction_schemasUnder with
  | object members hvalue ih =>
    have hunder : ∀ member ∈ members, ∀ (k : Keyword), ∀ w ∈ schemasUnder k member.2,
        Decoder.onValue decode (plainValue w) = (Decoder.onValue decode w).map plain := by
      intro member hmember k w hw
      have hmemberValue := Json.distinctMembers_iff.mp hvalue.2 member hmember
      exact ih member hmember k w hw (distinct_schemasUnder hmemberValue hw)
    have hstart : Alongside (members.map Prod.fst) {} {} :=
      ⟨rfl, fun k _ => ⟨List.not_mem_nil, List.not_mem_nil⟩, fun k _ => by cases k <;> rfl⟩
    have hmembers := decodeMembers_plain hvalue.1 hunder hstart
    rw [plainValue, rewrite, onValue_object, onValue_object, rewriteMembers_eq_map, hmembers]
    cases decodeMembers {} (Node.membersOfJson members) <;> rfl
  | other value _ h =>
    cases value with
    | object members => exact absurd rfl (h members)
    | _ => rfl

theorem decodeMap_plainMap (value : Json) (hvalue : value.Distinct) :
    decodeMap.onValue (plainMap value) =
      (decodeMap.onValue value).map (List.map fun entry => (entry.1, entry.2.plain)) := by
  refine onValue_rewriteMap ?_
  rintro members rfl member hmember
  exact decode_plainValue member.2 (Json.distinctMembers_iff.mp hvalue.2 member hmember)

end ApiTypes.Schema
