import ApiTypes.Proofs.DistinctKeys
import ApiTypes.Proofs.KeywordContents

/-!
# Decoding texts and values

A schema can be decoded from a text and from the value that the text holds.  Where
the text is one value without a repeated key, both ways give the same schemas, and
fail for the same reason on the same path; the text only adds a place.
-/

namespace ApiTypes
open Json (Node Label Finish)

/-! ### Nodes without faults -/

namespace Json.Node

mutual

/-- No object of the node has a key twice. -/
def Distinct : Node → Prop
  | .scalar _ _ | .broken _ => True
  | .array _ items _ => DistinctItems items
  | .object _ members _ => (members.map fun member => member.1.key).Nodup ∧ DistinctMembers members

def DistinctItems : List Node → Prop
  | [] => True
  | item :: rest => item.Distinct ∧ DistinctItems rest

def DistinctMembers : List (Label × Node) → Prop
  | [] => True
  | (_, value) :: rest => value.Distinct ∧ DistinctMembers rest

end

mutual

def decDistinct : (n : Node) → Decidable n.Distinct
  | .scalar _ _ | .broken _ => isTrue trivial
  | .array _ items _ => decDistinctItems items
  | .object _ members _ =>
    have := decDistinctMembers members
    inferInstanceAs (Decidable (_ ∧ _))

def decDistinctItems : (items : List Node) → Decidable (DistinctItems items)
  | [] => isTrue trivial
  | item :: rest =>
    have := decDistinct item
    have := decDistinctItems rest
    inferInstanceAs (Decidable (_ ∧ _))

def decDistinctMembers : (members : List (Label × Node)) → Decidable (DistinctMembers members)
  | [] => isTrue trivial
  | (_, value) :: rest =>
    have := decDistinct value
    have := decDistinctMembers rest
    inferInstanceAs (Decidable (_ ∧ _))

end

instance (n : Node) : Decidable n.Distinct := decDistinct n

/-- A node of a text that is well formed and repeats no key. -/
structure Sound (n : Node) : Prop where
  faultless : n.fault? = none
  distinct : n.Distinct

theorem sound_items {items : List Node} (hfault : itemsFault? items = none)
    (hdistinct : DistinctItems items) : ∀ item ∈ items, item.Sound := by
  induction items with
  | nil => simp
  | cons item rest ih =>
    rw [itemsFault?, Option.orElse_eq_none] at hfault
    rw [List.forall_mem_cons]
    exact ⟨⟨hfault.1, hdistinct.1⟩, ih hfault.2 hdistinct.2⟩

theorem sound_members {members : List (Label × Node)} (hfault : membersFault? members = none)
    (hdistinct : DistinctMembers members) : ∀ member ∈ members, member.2.Sound := by
  induction members with
  | nil => simp
  | cons member rest ih =>
    obtain ⟨label, value⟩ := member
    rw [membersFault?, Option.orElse_eq_none] at hfault
    rw [List.forall_mem_cons]
    exact ⟨⟨hfault.1, hdistinct.1⟩, ih hfault.2 hdistinct.2⟩

theorem Sound.array {start : Nat} {items : List Node} {finish : Finish}
    (h : (Node.array start items finish).Sound) :
    (∀ item ∈ items, item.Sound) ∧ ∃ stop, finish = .closed stop := by
  have hfault := (Option.orElse_eq_none _ _).mp h.faultless
  exact ⟨sound_items hfault.1 h.distinct, finish_of_fault?_eq_none hfault.2⟩

theorem Sound.object {start : Nat} {members : List (Label × Node)} {finish : Finish}
    (h : (Node.object start members finish).Sound) :
    (∀ member ∈ members, member.2.Sound) ∧ (∃ stop, finish = .closed stop) ∧
      (members.map fun member => member.1.key).Nodup := by
  have hfault := (Option.orElse_eq_none _ _).mp h.faultless
  exact ⟨sound_members hfault.1 h.distinct.2, finish_of_fault?_eq_none hfault.2, h.distinct.1⟩

theorem keys_membersToJson (members : List (Label × Node)) :
    (membersToJson members).map Prod.fst = members.map fun member => member.1.key := by
  rw [membersToJson_eq_map, List.map_map]
  rfl

theorem toJson_object {start : Nat} {members : List (Label × Node)} {finish : Finish}
    (h : (members.map fun member => member.1.key).Nodup) :
    (Node.object start members finish).toJson = .object (membersToJson members) := by
  rw [toJson, Members.ofList_of_nodup]
  rwa [keys_membersToJson]

end Json.Node

/-! ### Outcomes up to places -/

/-- The path and the cause of a failure. -/
def Failure.reason (f : Failure) : List Step × Cause := (f.path, f.cause)

section
variable {α β : Type}

/-- An outcome without the place at which it fails. -/
def unplaced (x : Except Failure α) : Except (List Step × Cause) α := x.mapError Failure.reason

theorem unplaced_bind (x : Except Failure α) (f : α → Except Failure β) :
    unplaced (x >>= f) = (unplaced x >>= fun a => unplaced (f a)) := by
  cases x <;> rfl

theorem unplaced_within {step : Step} {x y : Except Failure α} (h : unplaced x = unplaced y) :
    unplaced (within step x) = unplaced (within step y) := by
  cases x with
  | ok a =>
    cases y with
    | ok b => exact h
    | error f => cases h
  | error e =>
    cases y with
    | ok b => cases h
    | error f =>
      have hreason : e.reason = f.reason := Except.error.inj h
      have hpath : e.path = f.path := congrArg Prod.fst hreason
      have hcause : e.cause = f.cause := congrArg Prod.snd hreason
      simp [within, unplaced, Failure.reason, Failure.under, hpath, hcause]

theorem unplaced_bind_congr {x y : Except Failure α} {f g : α → Except Failure β}
    (hx : unplaced x = unplaced y) (hf : ∀ a, unplaced (f a) = unplaced (g a)) :
    unplaced (x >>= f) = unplaced (y >>= g) := by
  rw [unplaced_bind, unplaced_bind, hx, funext hf]

/-- The decoder does with the node what it does with its value. -/
def ReadsAlike (d : Decoder α) (n : Node) : Prop :=
  unplaced (d n) = unplaced (d (Node.ofJson n.toJson))

end

/-! ### Decoders read alike -/

section
variable {α : Type} {d : Decoder α} {n : Node}

theorem isNull_ofJson (h : n.Sound) : (Node.ofJson n.toJson).isNull = n.isNull := by
  cases n with
  | scalar value stop => cases value <;> rfl
  | array start items finish => rfl
  | object start members finish => rfl
  | broken fault => cases h.faultless

theorem readsAlike_string (h : n.Sound) : ReadsAlike Decoder.string n := by
  cases n with
  | scalar value stop => cases value <;> rfl
  | array start items finish => rfl
  | object start members finish => rfl
  | broken fault => cases h.faultless

theorem readsAlike_bool (h : n.Sound) : ReadsAlike Decoder.bool n := by
  cases n with
  | scalar value stop => cases value <;> rfl
  | array start items finish => rfl
  | object start members finish => rfl
  | broken fault => cases h.faultless

theorem readsAlike_optional (h : n.Sound) (hd : ReadsAlike d n) :
    ReadsAlike (Decoder.optional d) n := by
  rw [ReadsAlike, Decoder.optional, Decoder.optional, isNull_ofJson h]
  cases n.isNull with
  | true => rfl
  | false =>
    have hmap : ∀ x : Except Failure α, unplaced (x.map some) = (unplaced x).map some := by
      intro x
      cases x <;> rfl
    simp only [Bool.false_eq_true, if_false]
    rw [hmap, hmap, hd]

theorem readsAlike_json (h : n.Sound) : ReadsAlike Decoder.json n := by
  rw [ReadsAlike, json_eq_ok h.faultless, json_eq_ok (fault?_ofJson n.toJson),
    Node.toJson_ofJson n.toJson (Node.distinct_toJson n)]

theorem unplaced_items {items : List Node} (h : ∀ item ∈ items, ReadsAlike d item) (i : Nat) :
    unplaced (Decoder.items d i items) =
      unplaced (Decoder.items d i (Node.itemsOfJson (Node.itemsToJson items))) := by
  induction items generalizing i with
  | nil => rfl
  | cons item rest ih =>
    rw [List.forall_mem_cons] at h
    rw [Node.itemsToJson, Node.itemsOfJson, Decoder.items, Decoder.items]
    refine unplaced_bind_congr (unplaced_within h.1) fun a => ?_
    exact unplaced_bind_congr (ih h.2 (i + 1)) fun _ => rfl

theorem unplaced_members {members : List (Label × Node)}
    (h : ∀ member ∈ members, ReadsAlike d member.2) :
    unplaced (Decoder.members d members) =
      unplaced (Decoder.members d (Node.membersOfJson (Node.membersToJson members))) := by
  induction members with
  | nil => rfl
  | cons member rest ih =>
    obtain ⟨label, value⟩ := member
    rw [List.forall_mem_cons] at h
    rw [Node.membersToJson, Node.membersOfJson, Decoder.members, Decoder.members]
    refine unplaced_bind_congr (unplaced_within h.1) fun a => ?_
    exact unplaced_bind_congr (ih h.2) fun _ => rfl

theorem readsAlike_list (h : n.Sound) (hitems : ∀ start items finish,
    n = .array start items finish → ∀ item ∈ items, ReadsAlike d item) :
    ReadsAlike (Decoder.list d) n := by
  cases n with
  | scalar value stop => cases value <;> rfl
  | array start items finish =>
    obtain ⟨stop, rfl⟩ := h.array.2
    rw [ReadsAlike, Node.toJson, Node.ofJson, Decoder.list, Decoder.list]
    exact unplaced_bind_congr (unplaced_items (hitems start items _ rfl) 0) fun _ => rfl
  | object start members finish => rfl
  | broken fault => cases h.faultless

theorem readsAlike_map (h : n.Sound) (hmembers : ∀ start members finish,
    n = .object start members finish → ∀ member ∈ members, ReadsAlike d member.2) :
    ReadsAlike (Decoder.map d) n := by
  cases n with
  | scalar value stop => cases value <;> rfl
  | array start items finish => rfl
  | object start members finish =>
    obtain ⟨-, ⟨stop, rfl⟩, hkeys⟩ := h.object
    rw [ReadsAlike, Node.toJson_object hkeys, Node.ofJson, Decoder.map, Decoder.map]
    exact unplaced_bind_congr (unplaced_members (hmembers start members _ rfl)) fun _ => rfl
  | broken fault => cases h.faultless

end

/-! ### Schemas read alike -/

namespace Schema

theorem unplaced_checkFresh (seen : List Keyword) (k : Keyword) (a b : Label) :
    unplaced (checkFresh seen k a) = unplaced (checkFresh seen k b) := by
  rw [checkFresh, checkFresh]
  split <;> rfl

theorem unplaced_decodeMembers {members : List (Label × Node)}
    (hsound : ∀ member ∈ members, member.2.Sound)
    (h : ∀ member ∈ members, ∀ k : Keyword, ReadsAlike (Decoder.optional k.decoder) member.2)
    (p : Progress) :
    unplaced (decodeMembers p members) =
      unplaced (decodeMembers p (Node.membersOfJson (Node.membersToJson members))) := by
  induction members generalizing p with
  | nil => rfl
  | cons member rest ih =>
    obtain ⟨label, value⟩ := member
    rw [List.forall_mem_cons] at h hsound
    rw [Node.membersToJson, Node.membersOfJson]
    cases hk : Keyword.ofName? label.key with
    | some k =>
      have hk' : Keyword.ofName? (Label.mk label.key 0).key = some k := hk
      rw [decodeMembers_keyword hk, decodeMembers_keyword hk']
      refine unplaced_bind_congr (unplaced_checkFresh _ k _ _) fun _ => ?_
      refine unplaced_bind_congr (unplaced_within (h.1 k)) fun _ => ?_
      exact ih hsound.2 h.2 _
    | none =>
      have hk' : Keyword.ofName? (Label.mk label.key 0).key = none := hk
      rw [decodeMembers_other hk, decodeMembers_other hk']
      refine unplaced_bind_congr (unplaced_within (readsAlike_json hsound.1)) fun _ => ?_
      exact ih hsound.2 h.2 _

/-- A keyword's decoder reads a node alike if the schemas in it are read alike. -/
theorem readsAlike_decoder {n : Node} (h : n.Sound)
    (hsmaller : ∀ m : Node, sizeOf m < sizeOf n + 1 → m.Sound → ReadsAlike decode m)
    (k : Keyword) : ReadsAlike k.decoder n := by
  have hlist : ReadsAlike (Decoder.list decode) n := by
    refine readsAlike_list h ?_
    rintro start items finish rfl item hitem
    refine hsmaller item ?_ (h.array.1 item hitem)
    have hsize := List.sizeOf_lt_of_mem hitem
    simp only [Node.array.sizeOf_spec]
    omega
  cases k with
  | reference => exact readsAlike_string h
  | type => exact readsAlike_string h
  | allOf => exact hlist
  | anyOf => exact hlist
  | oneOf => exact hlist
  | items => exact hsmaller n (by omega) h
  | properties =>
    refine readsAlike_map h ?_
    rintro start members finish rfl member hmember
    refine hsmaller member.2 ?_ (h.object.1 member hmember)
    have hsize := List.sizeOf_lt_of_mem hmember
    obtain ⟨label, value⟩ := member
    simp only [Node.object.sizeOf_spec, Prod.mk.sizeOf_spec] at hsize ⊢
    omega
  | required =>
    refine readsAlike_list h ?_
    rintro start items finish rfl item hitem
    exact readsAlike_string (h.array.1 item hitem)
  | enum =>
    refine readsAlike_list h ?_
    rintro start items finish rfl item hitem
    exact readsAlike_json (h.array.1 item hitem)
  | nullable => exact readsAlike_bool h

theorem readsAlike_decode (n : Node) (h : n.Sound) : ReadsAlike decode n := by
  cases n with
  | scalar value stop => cases value <;> rfl
  | array start items finish => rfl
  | object start members finish =>
    obtain ⟨hsound, ⟨stop, rfl⟩, hkeys⟩ := h.object
    have hmembers : ∀ member ∈ members, ∀ k : Keyword,
        ReadsAlike (Decoder.optional k.decoder) member.2 := by
      -- the schemas under a keyword are two levels down, or the member itself
      intro member hmember k
      have hsize := List.sizeOf_lt_of_mem hmember
      have hvalue := hsound member hmember
      refine readsAlike_optional hvalue (readsAlike_decoder hvalue ?_ k)
      intro m hm
      have hlt : sizeOf m < sizeOf (Node.object start members (.closed stop)) := by
        obtain ⟨label, value⟩ := member
        simp only [Node.object.sizeOf_spec, Prod.mk.sizeOf_spec] at hsize hm ⊢
        omega
      exact readsAlike_decode m
    rw [ReadsAlike, Node.toJson_object hkeys, Node.ofJson, decode, decode]
    exact unplaced_bind_congr (unplaced_decodeMembers hsound hmembers {}) fun _ => rfl
  | broken fault => cases h.faultless
termination_by sizeOf n

end Schema

/-! ### Texts and their values -/

section
variable {α : Type} {d : Decoder α} {text : String} {value : Json}

/-- No object of the text has a key twice, however the key is written. -/
structure Json.RepeatsNoKey (text : String) : Prop where
  distinct : (Json.readNode Json.nestingLimit (Json.Cursor.ofString text)).1.Distinct

/-- The decoder gives the same results for the text as for the value, and the same
failures but for a place in the text. -/
structure Agree (d : Decoder α) (text : String) (value : Json) : Prop where
  result : ∀ r, d.onText text = .ok r ↔ d.onValue value = .ok r
  failure : ∀ f, d.onText text = .error f → ∃ g, d.onValue value = .error g ∧
    f.path = g.path ∧ f.cause = g.cause ∧
    f.messageIn text = g.message ++ (Json.Position.of text f.offset).suffix

theorem sound_of_parse (hparse : Json.parse text = .ok value) (hkeys : Json.RepeatsNoKey text) :
    (Json.readNode Json.nestingLimit (Json.Cursor.ofString text)).1.Sound ∧
      (Json.readNode Json.nestingLimit (Json.Cursor.ofString text)).1.toJson = value := by
  have hnode := Json.node_of_parse hparse
  exact ⟨⟨hnode.1, hkeys.distinct⟩, hnode.2⟩

theorem agree_of_readsAlike (hparse : Json.parse text = .ok value)
    (hkeys : Json.RepeatsNoKey text) (hd : ∀ n : Node, n.Sound → ReadsAlike d n) :
    Agree d text value := by
  obtain ⟨hsound, hvalue⟩ := sound_of_parse hparse hkeys
  have halike : unplaced (d.onText text) = unplaced (d.onValue value) := by
    rw [← hvalue]
    exact hd _ hsound
  cases hx : d.onText text with
  | ok a =>
    cases hy : d.onValue value with
    | ok b =>
      rw [hx, hy] at halike
      obtain rfl : a = b := Except.ok.inj halike
      exact ⟨fun r => by rw [hx, hy], fun f hf => by cases hx.symm.trans hf⟩
    | error g =>
      rw [hx, hy] at halike
      cases halike
  | error f =>
    cases hy : d.onValue value with
    | ok b =>
      rw [hx, hy] at halike
      cases halike
    | error g =>
      rw [hx, hy] at halike
      have hreason : f.reason = g.reason := Except.error.inj halike
      have hpath : f.path = g.path := congrArg Prod.fst hreason
      have hcause : f.cause = g.cause := congrArg Prod.snd hreason
      refine ⟨fun r => by simp [hx, hy], fun f' hf => ?_⟩
      obtain rfl : f = f' := Except.error.inj (hx.symm.trans hf)
      refine ⟨g, hy, hpath, hcause, ?_⟩
      rw [Failure.messageIn, Failure.message, Failure.message, hpath, hcause]

end

/-- Schemas and maps of schemas are decoded from a text as from its value. -/
theorem schemas_agree {text : String} {value : Json} (hparse : Json.parse text = .ok value)
    (hkeys : Json.RepeatsNoKey text) :
    Agree Schema.decode text value ∧ Agree Schema.decodeMap text value := by
  constructor
  · exact agree_of_readsAlike hparse hkeys Schema.readsAlike_decode
  · refine agree_of_readsAlike hparse hkeys fun n hn => ?_
    refine readsAlike_map hn ?_
    rintro start members finish rfl member hmember
    exact Schema.readsAlike_decode member.2 (hn.object.1 member hmember)

def nestedText : String :=
  "\x7b\"A\":\x7b\"type\":\"string\"\x7d,\n " ++
    "\"\\u0042\":\x7b\"x\":[-1,null],\"items\":\x7b\"$ref\":5\x7d\x7d\x7d"

def nestedValue : Json :=
  .object [("A", .object [("type", .string "string")]),
    ("B", .object [("x", .array [.number (.integer (-1)), .null]),
      ("items", .object [("$ref", .number (.integer 5))])])]

theorem schemas_agree_below_escaped_key :
    Json.parse nestedText = .ok nestedValue ∧ Json.RepeatsNoKey nestedText ∧
      Agree Schema.decode nestedText nestedValue ∧ Agree Schema.decodeMap nestedText nestedValue ∧
      Schema.decodeMap.onText nestedText = .error ⟨[.key "B", .key "items", .key "$ref"],
        .wrongType (.number (.integer 5)) "a string", 66⟩ := by
  have hparse : Json.parse nestedText = .ok nestedValue := by decide +kernel
  have hkeys : Json.RepeatsNoKey nestedText := ⟨by decide +kernel⟩
  obtain ⟨hschema, hmap⟩ := schemas_agree hparse hkeys
  exact ⟨hparse, hkeys, hschema, hmap, by decide +kernel⟩

end ApiTypes
