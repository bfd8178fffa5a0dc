import ApiTypes.Proofs.Decoding

/-!
# What stands under keywords

Every keyword of a schema has contents of its own type, read by a decoder of its
own.  Seen this way the members of a schema object are read by one rule: the value
of a keyword becomes its contents, `null` becomes none, and any other member is
kept as it is.
-/

namespace ApiTypes
open Json (Node Label Finish)

namespace Keyword

/-- What a schema holds under a keyword that is present. -/
def Content : Keyword → Type
  | .reference | .type => String
  | .allOf | .anyOf | .oneOf => List Schema
  | .items => Schema
  | .properties => List (String × Schema)
  | .required => List String
  | .enum => List Json
  | .nullable => Bool

/-- Reads the contents of a keyword. -/
def decoder : (k : Keyword) → Decoder k.Content
  | .reference | .type => Decoder.string
  | .allOf | .anyOf | .oneOf => Decoder.list Schema.decode
  | .items => Schema.decode
  | .properties => Decoder.map Schema.decode
  | .required => Decoder.list Decoder.string
  | .enum => Decoder.list Decoder.json
  | .nullable => Decoder.bool

theorem ofName?_eq_some_iff {key : String} {k : Keyword} : ofName? key = some k ↔ key = k.name := by
  constructor
  · intro h
    have hname := List.find?_some h
    exact (beq_iff_eq.mp hname).symm
  · rintro rfl
    cases k <;> decide

theorem name_injective {k l : Keyword} (h : k.name = l.name) : k = l := by
  have hk : ofName? k.name = some k := ofName?_eq_some_iff.mpr rfl
  have hl : ofName? k.name = some l := ofName?_eq_some_iff.mpr h
  exact Option.some.inj (hk.symm.trans hl)

theorem ofName?_eq_none_iff {key : String} : ofName? key = none ↔ ∀ k : Keyword, key ≠ k.name := by
  constructor
  · intro h k hk
    rw [ofName?_eq_some_iff.mpr hk] at h
    cases h
  · intro h
    cases hk : ofName? key with
    | none => rfl
    | some k => exact absurd (ofName?_eq_some_iff.mp hk) (h k)

theorem mem_all (k : Keyword) : k ∈ all := by cases k <;> decide

end Keyword

namespace Schema

/-! ### The contents of a schema -/

def content (s : Schema) : (k : Keyword) → Option k.Content
  | .reference => s.reference
  | .allOf => s.allOf
  | .anyOf => s.anyOf
  | .oneOf => s.oneOf
  | .type => s.type
  | .items => s.items
  | .properties => s.properties
  | .required => s.required
  | .enum => s.enum
  | .nullable => s.nullable

@[simp] theorem content_empty (k : Keyword) : ({} : Schema).content k = none := by
  cases k <;> rfl

def withContent (s : Schema) : (k : Keyword) → Option k.Content → Schema
  | .reference, c => { s with reference := c }
  | .allOf, c => { s with allOf := c }
  | .anyOf, c => { s with anyOf := c }
  | .oneOf, c => { s with oneOf := c }
  | .type, c => { s with type := c }
  | .items, c => { s with items := c }
  | .properties, c => { s with properties := c }
  | .required, c => { s with required := c }
  | .enum, c => { s with enum := c }
  | .nullable, c => { s with nullable := c }

@[simp] theorem content_withContent (s : Schema) (k : Keyword) (c : Option k.Content) :
    (s.withContent k c).content k = c := by
  cases k <;> rfl

theorem content_withContent_of_ne (s : Schema) {k l : Keyword} (c : Option k.Content)
    (h : l ≠ k) : (s.withContent k c).content l = s.content l := by
  cases k <;> cases l <;> first | rfl | exact absurd rfl h

@[simp] theorem extra_withContent (s : Schema) (k : Keyword) (c : Option k.Content) :
    (s.withContent k c).extra = s.extra := by
  cases k <;> rfl

theorem ext_content {s t : Schema} (h : ∀ k, s.content k = t.content k)
    (hextra : s.extra = t.extra) : s = t := by
  obtain ⟨_, _, _, _, _, _, _, _, _, _, _⟩ := s
  obtain ⟨_, _, _, _, _, _, _, _, _, _, _⟩ := t
  obtain rfl := h .reference
  obtain rfl := h .allOf
  obtain rfl := h .anyOf
  obtain rfl := h .oneOf
  obtain rfl := h .type
  obtain rfl := h .items
  obtain rfl := h .properties
  obtain rfl := h .required
  obtain rfl := h .enum
  obtain rfl := h .nullable
  obtain rfl := hextra
  rfl

/-! ### Reading members -/

theorem decodeItems_eq (i : Nat) (nodes : List Node) :
    decodeItems i nodes = Decoder.items decode i nodes := by
  induction nodes generalizing i with
  | nil => rfl
  | cons node rest ih => rw [decodeItems, Decoder.items, ih]

theorem decodeNamed_eq (nodes : List (Label × Node)) :
    decodeNamed nodes = Decoder.members decode nodes := by
  induction nodes with
  | nil => rfl
  | cons member rest ih => rw [decodeNamed, Decoder.members, ih]

theorem decodeListOption_eq (node : Node) :
    decodeListOption node = Decoder.optional (Decoder.list decode) node := by
  cases node with
  | scalar value stop => cases value <;> rfl
  | array start items finish =>
    rw [decodeListOption, decodeItems_eq, Decoder.optional, Decoder.list]
    cases Decoder.items decode 0 items <;> cases finish <;> rfl
  | object start members finish => rfl
  | broken fault => rfl

theorem decodeMapOption_eq (node : Node) :
    decodeMapOption node = Decoder.optional (Decoder.map decode) node := by
  cases node with
  | scalar value stop => cases value <;> rfl
  | array start items finish => rfl
  | object start members finish =>
    rw [decodeMapOption, decodeNamed_eq, Decoder.optional, Decoder.map]
    cases Decoder.members decode members <;> cases finish <;> rfl
  | broken fault => rfl

theorem checkFresh_of_notMem {seen : List Keyword} {k : Keyword} (h : k ∉ seen) (label : Label) :
    checkFresh seen k label = .ok () := by
  rw [checkFresh, if_neg h]

variable {p : Progress} {label : Label} {node : Node} {rest : List (Label × Node)}

/-- A member under a keyword sets its contents. -/
theorem decodeMembers_keyword {k : Keyword} (h : Keyword.ofName? label.key = some k) :
    decodeMembers p ((label, node) :: rest) = (do
      checkFresh p.seen k label
      let c ← within (.key label.key) (Decoder.optional k.decoder node)
      decodeMembers ⟨p.schema.withContent k c, k :: p.seen⟩ rest) := by
  rw [decodeMembers]
  simp only [h]
  have bind_within : ∀ {α : Type} (x : Except Failure α) (f : α → Schema),
      (do
        let schema ← within (.key label.key) (x.map f)
        decodeMembers ⟨schema, k :: p.seen⟩ rest) =
      (do
        let c ← within (.key label.key) x
        decodeMembers ⟨f c, k :: p.seen⟩ rest) := by
    intro α x f
    cases x <;> rfl
  refine bind_congr fun _ => ?_
  cases k with
  | reference => exact bind_within _ _
  | allOf =>
    rw [decodeListOption_eq]
    exact bind_within _ _
  | anyOf =>
    rw [decodeListOption_eq]
    exact bind_within _ _
  | oneOf =>
    rw [decodeListOption_eq]
    exact bind_within _ _
  | type => exact bind_within _ _
  | items =>
    have hitems : (Decoder.optional decode node).map (fun c => { p.schema with items := c }) =
        if node.isNull then .ok { p.schema with items := none }
        else (decode node).map fun v => { p.schema with items := some v } := by
      rw [Decoder.optional]
      cases node.isNull with
      | true => rfl
      | false => cases decode node <;> rfl
    have hbind := congrArg (fun x => do
      let schema ← within (.key label.key) x
      decodeMembers ⟨schema, .items :: p.seen⟩ rest) hitems
    exact hbind.symm.trans (bind_within _ _)
  | properties =>
    rw [decodeMapOption_eq]
    exact bind_within _ _
  | required => exact bind_within _ _
  | enum => exact bind_within _ _
  | nullable => exact bind_within _ _

/-- Any other member is kept. -/
theorem decodeMembers_other (h : Keyword.ofName? label.key = none) :
    decodeMembers p ((label, node) :: rest) = (do
      let value ← within (.key label.key) (Decoder.json node)
      decodeMembers { p with
        schema := { p.schema with extra := Members.insert label.key value p.schema.extra } }
        rest) := by
  rw [decodeMembers]
  simp only [h]

end Schema

end ApiTypes
