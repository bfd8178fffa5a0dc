import ApiTypes.Proofs.Declarations
import ApiTypes.Proofs.DistinctKeys
import ApiTypes.Proofs.References

/-!
# Names that are merged

A reference to a named schema is written as the identifier that the schema is
declared under.  The names of a document differ, but making identifiers of them
merges some: every character that no identifier holds becomes an underscore, and
so may meet another such character or an underscore of the name itself.
-/

namespace ApiTypes

/-! ### Names that become the same identifier -/

namespace Name

/-- The characters that are an underscore in an identifier. -/
def Blank (c : Char) : Prop := c = '_' ∨ isIdentifierChar c = false

/-- Names of one length whose characters differ only where both are blank. -/
def Alike : List Char → List Char → Prop :=
  List.Forall₂ fun c d => c = d ∨ Blank c ∧ Blank d

/-- An underscore is put in front: there is no first character, or it is a digit. -/
def NeedsGuard : List Char → Prop
  | [] => True
  | c :: _ => c.isDigit = true

/-- The second name has itself the underscore that is put in front of the first. -/
def GuardedBy (a : List Char) : List Char → Prop
  | [] => False
  | c :: rest => NeedsGuard a ∧ Blank c ∧ Alike a rest

/-- Whether two names are merged into one identifier.  A name is merged with itself. -/
def Merged (a b : String) : Prop :=
  Alike a.toList b.toList ∨ GuardedBy a.toList b.toList ∨ GuardedBy b.toList a.toList

section Decide
variable (a b : List Char)

instance : DecidablePred Blank := fun c =>
  inferInstanceAs (Decidable (c = '_' ∨ isIdentifierChar c = false))

instance : Decidable (Alike a b) :=
  inferInstanceAs (Decidable (List.Forall₂ (fun c d => c = d ∨ Blank c ∧ Blank d) a b))

instance : Decidable (NeedsGuard a) :=
  match a with
  | [] => inferInstanceAs (Decidable True)
  | c :: _ => inferInstanceAs (Decidable (c.isDigit = true))

instance : Decidable (GuardedBy a b) :=
  match b with
  | [] => inferInstanceAs (Decidable False)
  | c :: rest => inferInstanceAs (Decidable (NeedsGuard a ∧ Blank c ∧ Alike a rest))

instance (a b : String) : Decidable (Merged a b) :=
  inferInstanceAs (Decidable (Alike a.toList b.toList ∨ GuardedBy a.toList b.toList ∨
    GuardedBy b.toList a.toList))

end Decide

theorem sanitizeChar_eq_underscore_iff (c : Char) : sanitizeChar c = '_' ↔ Blank c := by
  unfold sanitizeChar Blank
  by_cases h : isIdentifierChar c = true
  · rw [if_pos h]
    simp [h]
  · rw [if_neg h]
    simp [h]

theorem sanitizeChar_of_ne_underscore {c : Char} (h : sanitizeChar c ≠ '_') :
    sanitizeChar c = c := by
  unfold sanitizeChar at h ⊢
  by_cases hc : isIdentifierChar c = true
  · rw [if_pos hc]
  · rw [if_neg hc] at h
    exact absurd rfl h

theorem sanitizeChar_eq_iff (c d : Char) :
    sanitizeChar c = sanitizeChar d ↔ c = d ∨ Blank c ∧ Blank d := by
  constructor
  · intro h
    by_cases hc : sanitizeChar c = '_'
    · have hd : sanitizeChar d = '_' := h.symm.trans hc
      exact .inr ⟨(sanitizeChar_eq_underscore_iff c).mp hc,
        (sanitizeChar_eq_underscore_iff d).mp hd⟩
    · have hd : sanitizeChar d ≠ '_' := fun hd => hc (h.trans hd)
      have hkept := sanitizeChar_of_ne_underscore hc
      exact .inl (hkept.symm.trans (h.trans (sanitizeChar_of_ne_underscore hd)))
  · rintro (rfl | ⟨hc, hd⟩)
    · rfl
    · rw [(sanitizeChar_eq_underscore_iff c).mpr hc, (sanitizeChar_eq_underscore_iff d).mpr hd]

theorem isDigit_sanitizeChar (c : Char) : (sanitizeChar c).isDigit = c.isDigit := by
  unfold sanitizeChar
  by_cases h : isIdentifierChar c = true
  · rw [if_pos h]
  · rw [if_neg h]
    have hdigit : c.isDigit = false := by
      by_contra hd
      rw [Bool.not_eq_false] at hd
      exact h (by simp [isIdentifierChar, Char.isAlphanum, hd])
    rw [hdigit]
    decide

theorem map_sanitizeChar_eq_iff (a b : List Char) :
    a.map sanitizeChar = b.map sanitizeChar ↔ Alike a b := by
  rw [← List.forall₂_eq_eq_eq, List.forall₂_map_left_iff, List.forall₂_map_right_iff, Alike]
  simp only [sanitizeChar_eq_iff]

theorem needsGuard_map (cs : List Char) : NeedsGuard (cs.map sanitizeChar) ↔ NeedsGuard cs := by
  cases cs with
  | nil => rfl
  | cons c cs => simp [NeedsGuard, isDigit_sanitizeChar]

theorem guardStart_of_needsGuard {cs : List Char} (h : NeedsGuard cs) :
    guardStart cs = '_' :: cs := by
  cases cs with
  | nil => rfl
  | cons c cs =>
    have hdigit : c.isDigit = true := h
    simp [guardStart, hdigit]

theorem guardStart_of_not_needsGuard {cs : List Char} (h : ¬ NeedsGuard cs) :
    guardStart cs = cs := by
  cases cs with
  | nil => exact absurd trivial h
  | cons c cs =>
    have hdigit : c.isDigit = false := by simpa [NeedsGuard] using h
    simp [guardStart, hdigit]

theorem Alike.needsGuard_iff {a b : List Char} (h : Alike a b) : NeedsGuard a ↔ NeedsGuard b := by
  rw [← needsGuard_map a, ← needsGuard_map b, (map_sanitizeChar_eq_iff a b).mpr h]

theorem not_needsGuard_of_blank {c : Char} (rest : List Char) (h : Blank c) :
    ¬ NeedsGuard (c :: rest) := by
  intro hguard
  have hdigit : c.isDigit = true := hguard
  rw [← isDigit_sanitizeChar, (sanitizeChar_eq_underscore_iff c).mpr h] at hdigit
  exact absurd hdigit (by decide)

theorem GuardedBy.not_needsGuard {a b : List Char} (h : GuardedBy a b) : ¬ NeedsGuard b := by
  cases b with
  | nil => exact h.elim
  | cons c rest => exact not_needsGuard_of_blank rest h.2.1

theorem GuardedBy.needsGuard {a b : List Char} (h : GuardedBy a b) : NeedsGuard a := by
  cases b with
  | nil => exact h.elim
  | cons c rest => exact h.1

theorem underscore_cons_eq_iff {a b : List Char} (ha : NeedsGuard a) :
    '_' :: a.map sanitizeChar = b.map sanitizeChar ↔ GuardedBy a b := by
  cases b with
  | nil => simp [GuardedBy]
  | cons c rest =>
    rw [List.map_cons, List.cons.injEq, eq_comm, sanitizeChar_eq_underscore_iff,
      map_sanitizeChar_eq_iff]
    exact (and_iff_right ha).symm

/-- The identifiers of two names are the same exactly where the names are merged. -/
theorem typeName_eq_iff (a b : String) : typeName a = typeName b ↔ Merged a b := by
  have hchars : typeName a = typeName b ↔ guardStart (a.toList.map sanitizeChar) =
      guardStart (b.toList.map sanitizeChar) := String.ofList_inj
  rw [hchars, Merged]
  generalize a.toList = a
  generalize b.toList = b
  -- one of the four cases by what is put in front of each
  by_cases ha : NeedsGuard a <;> by_cases hb : NeedsGuard b
  · rw [guardStart_of_needsGuard ((needsGuard_map a).mpr ha),
      guardStart_of_needsGuard ((needsGuard_map b).mpr hb), List.cons.injEq,
      map_sanitizeChar_eq_iff]
    constructor
    · exact fun h => .inl h.2
    · rintro (h | h | h)
      · exact ⟨rfl, h⟩
      · exact absurd hb h.not_needsGuard
      · exact absurd ha h.not_needsGuard
  · rw [guardStart_of_needsGuard ((needsGuard_map a).mpr ha),
      guardStart_of_not_needsGuard (mt (needsGuard_map b).mp hb), underscore_cons_eq_iff ha]
    constructor
    · exact fun h => .inr (.inl h)
    · rintro (h | h | h)
      · exact absurd (h.needsGuard_iff.mp ha) hb
      · exact h
      · exact absurd h.needsGuard hb
  · rw [guardStart_of_not_needsGuard (mt (needsGuard_map a).mp ha),
      guardStart_of_needsGuard ((needsGuard_map b).mpr hb), eq_comm, underscore_cons_eq_iff hb]
    constructor
    · exact fun h => .inr (.inr h)
    · rintro (h | h | h)
      · exact absurd (h.needsGuard_iff.mpr hb) ha
      · exact absurd h.needsGuard ha
      · exact h
  · rw [guardStart_of_not_needsGuard (mt (needsGuard_map a).mp ha),
      guardStart_of_not_needsGuard (mt (needsGuard_map b).mp hb), map_sanitizeChar_eq_iff]
    constructor
    · exact .inl
    · rintro (h | h | h)
      · exact h
      · exact absurd h.needsGuard ha
      · exact absurd h.needsGuard hb

example : Merged "2fa" ".2fa" ∧ Merged "" "-" ∧ ¬ Merged "2fa" "3fa" := by decide

/-- A name of kept characters that needs nothing in front is merged with no other. -/
theorem merged_iff_eq {a b : String} (hkept : ∀ c ∈ b.toList, ¬ Blank c)
    (hguard : ¬ NeedsGuard b.toList) : Merged a b ↔ a = b := by
  have halike : ∀ {a b : List Char}, (∀ c ∈ b, ¬ Blank c) → Alike a b → a = b := by
    intro a b hkept h
    induction h with
    | nil => rfl
    | @cons c d a b hhead htail ih =>
      rw [List.forall_mem_cons] at hkept
      have hd : c = d := hhead.resolve_right fun hblank => hkept.1 hblank.2
      rw [hd, ih hkept.2]
  constructor
  · rintro (h | h | h)
    · exact String.toList_inj.mp (halike hkept h)
    · cases hb : b.toList with
      | nil =>
        rw [hb] at h
        exact h.elim
      | cons c rest =>
        rw [hb] at h hkept
        exact absurd h.2.1 (hkept c List.mem_cons_self)
    · exact absurd h.needsGuard hguard
  · rintro rfl
    exact (typeName_eq_iff a a).mp rfl

theorem typeName_eq_t_iff (name : String) : typeName name = "t" ↔ name = "t" := by
  have htext : typeName "t" = "t" := rfl
  have hkept : ∀ c ∈ "t".toList, ¬ Blank c := by
    intro c hc
    obtain rfl : c = 't' := List.mem_singleton.mp hc
    decide
  have hguard : ¬ NeedsGuard "t".toList := by decide
  have hnames := typeName_eq_iff name "t"
  rw [htext] at hnames
  exact hnames.trans (merged_iff_eq hkept hguard)

theorem referenceName_local (name : String) :
    referenceName ("#/components/schemas/" ++ name) = typeName name := by
  have hprefix : ∀ (front rest : List Char), front.isPrefixOf? (front ++ rest) = some rest := by
    intro front rest
    induction front with
    | nil => rfl
    | cons c front ih => simp [List.isPrefixOf?, ih]
  have hpath : ("#/components/schemas/" ++ name).toList = localPrefix ++ name.toList :=
    String.toList_append
  rw [referenceName, hpath, hprefix]
  exact congrArg typeName String.ofList_toList

end Name

/-! ### The names of a document -/

namespace Document
open Name (typeName Merged)

theorem nodup_names (document : Json) : ((entries document).map Prod.fst).Nodup := by
  unfold entries
  split
  · exact Members.nodup_keys_ofList _
  · exact List.nodup_nil

theorem writes_of_generate {options : Options} {document : Json} {text : String}
    (h : generate options document = .ok text) {entry : String × Json}
    (hentry : entry ∈ entries document) {p : Schema}
    (hp : Decoder.onValue Schema.decode entry.2 = .ok p) (t : Target) :
    ∃ type, (TypeWriter.mk t options.exitOnInvalidType).shape p.shape = .ok type := by
  obtain ⟨-, members, named, hschemas, hdecode, hfault, -⟩ := (generate_eq_ok_iff _ _ _).mp h
  rw [entries_eq hschemas] at hentry
  obtain ⟨⟨name, s⟩, hmem, -, hs⟩ := exists_of_forall₂_of_mem hdecode.ofList.flip hentry
  obtain rfl := Except.ok.inj (hs.symm.trans hp)
  have hnone : firstFault options.exitOnInvalidType s.shape.nodes = none := by
    refine List.findSome?_eq_none_iff.mpr fun k hk => ?_
    refine List.findSome?_eq_none_iff.mp hfault k (List.mem_flatMap.mpr ⟨(name, s.shape), ?_, hk⟩)
    exact List.mem_map_of_mem hmem
  refine ⟨t.written s.shape, ?_⟩
  rw [TypeWriter.shape_eq, hnone]
  rfl

/-- Where the references to named schemas lead.  The schemas of a module are
declared under the identifiers of their names, which differ, and a schema that
refers to a named one is written as the identifier of its name, by itself or behind
the members of the composite beside it.  So is every such node that is reached, within
the type of its declaration; one that is passed over is written nowhere.  The identifier
is also that of the schemas whose names are merged with this one, and only of these: the
declared identifiers differ if and only if no two names are merged.  None of them is the
`t` that codecs are imported as, unless a schema is called so. -/
theorem references_meet_declarations {options : Options} {document : Json} {text : String}
    (h : generate options document = .ok text) :
    IsGenerated options document text ∧
    ((entries document).map Prod.fst).Nodup ∧
    (∀ t ∈ [Target.typeScript, .flow, .codec], ∀ strict, ∀ entry ∈ entries document,
      ∀ s : Schema, s.reference = some ("#/components/schemas/" ++ entry.1) →
        ∀ type, (TypeWriter.mk t strict).shape s.shape = .ok type ↔
          s.ReferenceText ⟨t, strict⟩ (typeName entry.1) type) ∧
    (∀ t ∈ [Target.typeScript, .flow, .codec], ∀ entry ∈ entries document, ∀ p,
      Decoder.onValue Schema.decode entry.2 = .ok p →
        ∃ whole, (TypeWriter.mk t options.exitOnInvalidType).shape p.shape = .ok whole ∧
          ∀ a n, p.at? a = some n →
            (p.Reaches a →
              ∃ type, (TypeWriter.mk t options.exitOnInvalidType).shape n.shape = .ok type ∧
                Text.Within type whole) ∧
            (¬ p.Reaches a → p.shape.at? (p.place a) = none)) ∧
    (∀ entry ∈ entries document, ∀ other ∈ entries document,
      typeName entry.1 = typeName other.1 ↔ Merged entry.1 other.1) ∧
    (((entries document).map fun entry => typeName entry.1).Nodup ↔
      (entries document).Pairwise fun entry other => ¬ Merged entry.1 other.1) ∧
    (∀ entry ∈ entries document, typeName entry.1 = "t" ↔ entry.1 = "t") := by
  refine ⟨isGenerated_of_generate h, nodup_names document, ?_, ?_, ?_, ?_, ?_⟩
  · intro t ht strict entry _ s href type
    have hidentifier : t.reference (Name.referenceName ("#/components/schemas/" ++ entry.1)) =
        typeName entry.1 := by
      rw [Name.referenceName_local]
      simp only [List.mem_cons, List.not_mem_nil, or_false] at ht
      rcases ht with rfl | rfl | rfl <;> rfl
    rw [← hidentifier]
    exact TypeWriter.shape_eq_ok_iff_referenceText href
  · intro t ht entry hentry p hp
    obtain ⟨whole, hwhole⟩ := writes_of_generate h hentry hp t
    refine ⟨whole, hwhole, fun a n hn => ⟨?_, ?_⟩⟩
    · exact TypeWriter.written_of_reaches (Target.encloses ht) hwhole hn
    · intro hpassed
      refine Option.eq_none_iff_forall_ne_some.mpr fun x hx => ?_
      exact hpassed ((Schema.at?_place_shape hn).mp hx).1
  · intro entry _ other _
    exact Name.typeName_eq_iff entry.1 other.1
  · rw [List.Nodup, List.pairwise_map]
    simp only [ne_eq, Name.typeName_eq_iff]
  · intro entry _
    exact Name.typeName_eq_t_iff entry.1

/-- A reference in the items of an array, beside a composite, and nullable. -/
theorem references_to_sanitized_name :
    let pet : Json := .object [("type", .string "string")]
    let pets : Json := .object [("items", .object [
      ("$ref", .string "#/components/schemas/api.Pet"),
      ("allOf", .array [.object [("type", .string "number")]]), ("nullable", .bool true)])]
    let document := ofSchemas [("api.Pet", pet), ("Pets", pets)]
    let text := "export type api_Pet=string\nexport type Pets=Array<((number&api_Pet)|null)>"
    let item : Schema := { reference := some "#/components/schemas/api.Pet",
                           allOf := some [{ type := some "number" }], nullable := some true }
    let list : Schema := { items := some item }
    let w : TypeWriter := ⟨.typeScript, false⟩
    generate {} document = .ok text ∧ IsGenerated {} document text ∧
      w.shape item.shape = .ok "((number&api_Pet)|null)" ∧
      (∃ whole, w.shape list.shape = .ok whole ∧
        Text.Within "((number&api_Pet)|null)" whole) ∧
      ((entries document).map fun entry => typeName entry.1).Nodup := by
  intro pet pets document text item list w
  have hgenerate : generate {} document = .ok text := rfl
  obtain ⟨hgenerated, -, hreferences, hparts, -, hnodup, -⟩ :=
    references_meet_declarations hgenerate
  have hpet : ("api.Pet", pet) ∈ entries document := List.mem_cons_self
  have hpets : ("Pets", pets) ∈ entries document :=
    List.mem_cons_of_mem _ (List.mem_singleton_self _)
  have hmembers : List.Forall₂ (fun c type => w.shape c.shape = .ok type) (item.children .allOf)
      ["number"] := .cons rfl .nil
  have htext : w.target.wrap true
      (w.target.composite .allOf (["number"] ++ [typeName "api.Pet"])) =
        "((number&api_Pet)|null)" := by decide
  have hitem : w.shape item.shape = .ok "((number&api_Pet)|null)" := by
    rw [← htext]
    exact (hreferences .typeScript List.mem_cons_self false _ hpet item rfl _).mpr
      (.beside rfl hmembers)
  have hreaches : list.Reaches [⟨.items, 0⟩] :=
    ⟨Schema.enters_items_iff.mpr ⟨Nat.zero_le 1, rfl, rfl, rfl⟩, item, rfl, trivial⟩
  obtain ⟨whole, hwhole, hall⟩ := hparts .typeScript List.mem_cons_self _ hpets list rfl
  obtain ⟨type, htype, hwithin⟩ := (hall [⟨.items, 0⟩] item rfl).1 hreaches
  obtain rfl := Except.ok.inj (hitem.symm.trans htype)
  exact ⟨hgenerate, hgenerated, hitem, ⟨whole, hwhole, hwithin⟩, hnodup.mpr (by decide)⟩

/-- A dot and an underscore are merged, and `t` is taken by the import. -/
theorem merged_declarations :
    let document := ofSchemas [
      ("a.b", .object [("type", .string "string")]),
      ("a_b", .object [("type", .string "number")]),
      ("t", .object [("$ref", .string "#/components/schemas/a.b")])]
    generate ⟨.codec, false⟩ document = .ok
      ("export type a_b=string\nexport type a_b=number\nexport type t=a_b;\n" ++
        ("import * as t from 'io-ts'\n" ++
          "export const a_b=t.string;\nexport const a_b=t.number;\nexport const t=a_b")) ∧
      ((entries document).map Prod.fst).Nodup ∧
      ¬ ((entries document).map fun entry => typeName entry.1).Nodup ∧
      "t" ∈ (entries document).map fun entry => typeName entry.1 := by
  intro document
  exact ⟨rfl, by decide, by decide, by decide⟩

end Document

end ApiTypes
