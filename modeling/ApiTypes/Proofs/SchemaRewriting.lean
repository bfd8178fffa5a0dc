import ApiTypes.Proofs.DistinctKeys
import ApiTypes.Proofs.KeywordContents

/-!
# Rewriting schema objects

A value that stands for a schema holds further schemas under its keywords.
`rewrite f` applies `f` to the members of every schema object, the innermost first,
and leaves everything else as it is.  What a keyword's decoder makes of a rewritten
value follows from what is made of the schemas directly under the keyword.
-/

namespace ApiTypes.Schema
open Json (Node Label)

/-- A change of the members of one schema object. -/
abbrev Rewriting := List (String × Json) → List (String × Json)

mutual

/-- Rewrites every schema object of a value that stands for a schema. -/
def rewrite (f : Rewriting) : Json → Json
  | .object members => .object (f (rewriteMembers f members))
  | value => value

def rewriteMembers (f : Rewriting) : List (String × Json) → List (String × Json)
  | [] => []
  | (key, value) :: rest =>
    let value := match Keyword.ofName? key with
      | some .allOf | some .anyOf | some .oneOf => rewriteList f value
      | some .items => rewrite f value
      | some .properties => rewriteMap f value
      | _ => value
    (key, value) :: rewriteMembers f rest

def rewriteList (f : Rewriting) : Json → Json
  | .array items => .array (rewriteItems f items)
  | value => value

def rewriteItems (f : Rewriting) : List Json → List Json
  | [] => []
  | item :: rest => rewrite f item :: rewriteItems f rest

def rewriteMap (f : Rewriting) : Json → Json
  | .object members => .object (rewriteNamed f members)
  | value => value

def rewriteNamed (f : Rewriting) : List (String × Json) → List (String × Json)
  | [] => []
  | (key, value) :: rest => (key, rewrite f value) :: rewriteNamed f rest

end

def rewriteUnder (f : Rewriting) : Keyword → Json → Json
  | .allOf | .anyOf | .oneOf => rewriteList f
  | .items => rewrite f
  | .properties => rewriteMap f
  | .reference | .type | .required | .enum | .nullable => id

/-- The schemas directly in the value of a keyword. -/
def schemasUnder : Keyword → Json → List Json
  | .allOf, .array items | .anyOf, .array items | .oneOf, .array items => items
  | .items, value => [value]
  | .properties, .object members => members.map Prod.snd
  | _, _ => []

variable {f : Rewriting}

theorem rewriteItems_eq_map (items : List Json) : rewriteItems f items = items.map (rewrite f) := by
  induction items with
  | nil => rfl
  | cons item rest ih => rw [rewriteItems, ih, List.map_cons]

theorem rewriteNamed_eq_map (members : List (String × Json)) :
    rewriteNamed f members = members.map fun member => (member.1, rewrite f member.2) := by
  induction members with
  | nil => rfl
  | cons member rest ih => rw [rewriteNamed, ih, List.map_cons]

def rewriteMember (f : Rewriting) (member : String × Json) : String × Json :=
  (member.1, match Keyword.ofName? member.1 with
    | some k => rewriteUnder f k member.2
    | none => member.2)

theorem rewriteMembers_eq_map (members : List (String × Json)) :
    rewriteMembers f members = members.map (rewriteMember f) := by
  induction members with
  | nil => rfl
  | cons member rest ih =>
    obtain ⟨key, value⟩ := member
    rw [rewriteMembers, ih, List.map_cons, rewriteMember]
    cases Keyword.ofName? key with
    | none => rfl
    | some k => cases k <;> rfl

theorem rewriteMember_keyword (k : Keyword) (value : Json) :
    rewriteMember f (k.name, value) = (k.name, rewriteUnder f k value) := by
  rw [rewriteMember, Keyword.ofName?_eq_some_iff.mpr rfl]

theorem rewriteMember_other {key : String} (h : Keyword.ofName? key = none) (value : Json) :
    rewriteMember f (key, value) = (key, value) := by
  rw [rewriteMember, h]

theorem keys_rewriteMembers (members : List (String × Json)) :
    (rewriteMembers f members).map Prod.fst = members.map Prod.fst := by
  rw [rewriteMembers_eq_map, List.map_map]
  rfl

theorem sizeOf_schemasUnder {k : Keyword} {value w : Json} (h : w ∈ schemasUnder k value) :
    sizeOf w ≤ sizeOf value := by
  have hitems : ∀ items : List Json, w ∈ items → sizeOf w ≤ sizeOf (Json.array items) := by
    intro items hmem
    have hlt := List.sizeOf_lt_of_mem hmem
    simp only [Json.array.sizeOf_spec]
    omega
  unfold schemasUnder at h
  split at h
  · exact hitems _ h
  · exact hitems _ h
  · exact hitems _ h
  · exact Nat.le_of_eq (congrArg sizeOf (List.mem_singleton.mp h))
  · rename_i members
    obtain ⟨⟨name, value⟩, hmem, rfl⟩ := List.mem_map.mp h
    have hlt := List.sizeOf_lt_of_mem hmem
    simp only [Prod.mk.sizeOf_spec, Json.object.sizeOf_spec] at hlt ⊢
    omega
  · cases h

theorem sizeOf_lt_of_member {members : List (String × Json)} {member : String × Json}
    (h : member ∈ members) : sizeOf member.2 < sizeOf (Json.object members) := by
  have hlt := List.sizeOf_lt_of_mem h
  obtain ⟨name, value⟩ := member
  simp only [Prod.mk.sizeOf_spec, Json.object.sizeOf_spec] at hlt ⊢
  omega

theorem hereditary_schemasUnder {P : Json → Prop} (hP : Json.Hereditary P) {k : Keyword}
    {value w : Json} (hvalue : P value) (h : w ∈ schemasUnder k value) : P w := by
  unfold schemasUnder at h
  split at h
  · exact hP.item _ hvalue w h
  · exact hP.item _ hvalue w h
  · exact hP.item _ hvalue w h
  · obtain rfl := List.mem_singleton.mp h
    exact hvalue
  · obtain ⟨member, hmember, rfl⟩ := List.mem_map.mp h
    exact hP.member _ hvalue member hmember
  · cases h

theorem distinct_schemasUnder {k : Keyword} {value w : Json} (hvalue : value.Distinct)
    (h : w ∈ schemasUnder k value) : w.Distinct :=
  hereditary_schemasUnder Json.hereditary_distinct hvalue h

/-- Induction over the values that stand for schemas: an object after all that stands for
schemas under its keys. -/
theorem induction_schemasUnder {motive : (value : Json) → value.Distinct → Prop}
    (object : ∀ (members : List (String × Json)) (h : (Json.object members).Distinct),
      (∀ member ∈ members, ∀ (k : Keyword), ∀ w ∈ schemasUnder k member.2,
        ∀ hw : w.Distinct, motive w hw) → motive (.object members) h)
    (other : ∀ (value : Json) (h : value.Distinct), (∀ members, value ≠ .object members) →
      motive value h) : ∀ (value : Json) (h : value.Distinct), motive value h
  | .object members, h => by
    refine object members h fun member hmember k w hw hdistinct => ?_
    have hsmaller : sizeOf w < sizeOf (Json.object members) :=
      Nat.lt_of_le_of_lt (sizeOf_schemasUnder hw) (sizeOf_lt_of_member hmember)
    exact induction_schemasUnder object other w hdistinct
  | .null, h | .bool _, h | .number _, h | .string _, h | .array _, h => other _ h nofun
termination_by value => sizeOf value
decreasing_by exact hsmaller

/-! ### Decoding rewritten values -/

/-- Applies a function to the schemas in the contents of a keyword. -/
def mapContent (g : Schema → Schema) : (k : Keyword) → k.Content → k.Content
  | .allOf | .anyOf | .oneOf => List.map g
  | .items => g
  | .properties => List.map fun entry => (entry.1, g entry.2)
  | .reference | .type | .required | .enum | .nullable => id

theorem onValue_object (members : List (String × Json)) :
    Decoder.onValue decode (.object members) =
      (decodeMembers {} (Node.membersOfJson members)).map Progress.schema := by
  rw [Decoder.onValue, Node.ofJson, decode]
  cases decodeMembers {} (Node.membersOfJson members) <;> rfl

section
variable {g : Schema → Schema} {k : Keyword} {value : Json}

theorem onValue_rewriteItems {items : List Json}
    (h : ∀ w ∈ items, Decoder.onValue decode (rewrite f w) = (Decoder.onValue decode w).map g)
    (i : Nat) :
    Decoder.items decode i (Node.itemsOfJson (rewriteItems f items)) =
      (Decoder.items decode i (Node.itemsOfJson items)).map (List.map g) := by
  induction items generalizing i with
  | nil => rfl
  | cons item rest ih =>
    rw [List.forall_mem_cons] at h
    have hitem : decode (Node.ofJson (rewrite f item)) = (decode (Node.ofJson item)).map g := h.1
    rw [rewriteItems, Node.itemsOfJson, Node.itemsOfJson, Decoder.items, Decoder.items, hitem,
      ih h.2 (i + 1)]
    cases decode (Node.ofJson item) with
    | error e => rfl
    | ok s => cases Decoder.items decode (i + 1) (Node.itemsOfJson rest) <;> rfl

theorem onValue_rewriteNamed {members : List (String × Json)}
    (h : ∀ member ∈ members, Decoder.onValue decode (rewrite f member.2) =
      (Decoder.onValue decode member.2).map g) :
    Decoder.members decode (Node.membersOfJson (rewriteNamed f members)) =
      (Decoder.members decode (Node.membersOfJson members)).map
        (List.map fun entry => (entry.1, g entry.2)) := by
  induction members with
  | nil => rfl
  | cons member rest ih =>
    obtain ⟨key, value⟩ := member
    rw [List.forall_mem_cons] at h
    have hvalue : decode (Node.ofJson (rewrite f value)) = (decode (Node.ofJson value)).map g :=
      h.1
    rw [rewriteNamed, Node.membersOfJson, Node.membersOfJson, Decoder.members, Decoder.members,
      hvalue, ih h.2]
    cases decode (Node.ofJson value) with
    | error e => rfl
    | ok s => cases Decoder.members decode (Node.membersOfJson rest) <;> rfl

theorem ofList_map_snd {α β : Type} (h : α → β) (pairs : List (String × α)) :
    Members.ofList (pairs.map fun entry => (entry.1, h entry.2)) =
      (Members.ofList pairs).map fun entry => (entry.1, h entry.2) := by
  have hinsert : ∀ (key : String) (a : α) (set : List (String × α)),
      Members.insert key (h a) (set.map fun entry => (entry.1, h entry.2)) =
        (Members.insert key a set).map fun entry => (entry.1, h entry.2) := by
    intro key a set
    induction set with
    | nil => rfl
    | cons entry rest ih =>
      rw [List.map_cons, Members.insert, Members.insert, ih]
      split <;> rfl
  have key : ∀ (pairs set : List (String × α)),
      (pairs.map fun entry => (entry.1, h entry.2)).foldl
          (fun set m => Members.insert m.1 m.2 set) (set.map fun entry => (entry.1, h entry.2)) =
        (pairs.foldl (fun set m => Members.insert m.1 m.2 set) set).map
          fun entry => (entry.1, h entry.2) := by
    intro pairs
    induction pairs with
    | nil => exact fun _ => rfl
    | cons pair rest ih =>
      intro set
      rw [List.map_cons, List.foldl_cons, List.foldl_cons, hinsert]
      exact ih _
  exact key pairs []

theorem onValue_rewriteList (h : ∀ items, value = .array items → ∀ w ∈ items,
      Decoder.onValue decode (rewrite f w) = (Decoder.onValue decode w).map g) :
    (Decoder.list decode).onValue (rewriteList f value) =
      ((Decoder.list decode).onValue value).map (List.map g) := by
  cases value with
  | array items =>
    rw [rewriteList, Decoder.onValue, Decoder.onValue, Node.ofJson, Node.ofJson, Decoder.list,
      Decoder.list, onValue_rewriteItems (h items rfl) 0]
    cases Decoder.items decode 0 (Node.itemsOfJson items) <;> rfl
  | _ => rfl

theorem onValue_rewriteMap (h : ∀ members, value = .object members → ∀ member ∈ members,
      Decoder.onValue decode (rewrite f member.2) = (Decoder.onValue decode member.2).map g) :
    decodeMap.onValue (rewriteMap f value) =
      (decodeMap.onValue value).map (List.map fun entry => (entry.1, g entry.2)) := by
  cases value with
  | object members =>
    rw [decodeMap, rewriteMap, map_onValue_object, map_onValue_object,
      onValue_rewriteNamed (h members rfl)]
    cases Decoder.members decode (Node.membersOfJson members) with
    | error e => rfl
    | ok entries => exact congrArg Except.ok (ofList_map_snd g entries)
  | _ => rfl

theorem onValue_rewriteUnder
    (h : ∀ w ∈ schemasUnder k value,
      Decoder.onValue decode (rewrite f w) = (Decoder.onValue decode w).map g) :
    k.decoder.onValue (rewriteUnder f k value) =
      (k.decoder.onValue value).map (mapContent g k) := by
  have hself : ∀ {α : Type} (x : Except Failure α), x = x.map id := by
    intro α x
    cases x <;> rfl
  cases k with
  | reference => exact hself _
  | type => exact hself _
  | required => exact hself _
  | enum => exact hself _
  | nullable => exact hself _
  | allOf => exact onValue_rewriteList (by rintro items rfl; exact h)
  | anyOf => exact onValue_rewriteList (by rintro items rfl; exact h)
  | oneOf => exact onValue_rewriteList (by rintro items rfl; exact h)
  | items => exact h value (List.mem_singleton_self value)
  | properties =>
    refine onValue_rewriteMap ?_
    rintro members rfl member hmem
    exact h member.2 (List.mem_map_of_mem hmem)

theorem rewriteUnder_eq_null_iff : rewriteUnder f k value = .null ↔ value = .null := by
  cases k <;> cases value <;> simp [rewriteUnder, rewriteList, rewrite, rewriteMap]

theorem optional_onValue_rewriteUnder
    (h : ∀ w ∈ schemasUnder k value,
      Decoder.onValue decode (rewrite f w) = (Decoder.onValue decode w).map g) :
    (Decoder.optional k.decoder).onValue (rewriteUnder f k value) =
      ((Decoder.optional k.decoder).onValue value).map (Option.map (mapContent g k)) := by
  rw [optional_onValue, optional_onValue, onValue_rewriteUnder h]
  by_cases hnull : value = .null
  · rw [if_pos hnull, if_pos (rewriteUnder_eq_null_iff.mpr hnull)]
    rfl
  · rw [if_neg hnull, if_neg (mt rewriteUnder_eq_null_iff.mp hnull)]
    cases k.decoder.onValue value <;> rfl

end

end ApiTypes.Schema
