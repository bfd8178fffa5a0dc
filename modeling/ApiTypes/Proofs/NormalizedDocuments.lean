import ApiTypes.Proofs.Annotations
import ApiTypes.Proofs.TidySchemas

/-!
# Documents with normalized schemas

Every named schema of a document may be replaced by what is written for its normal
form.  This is read back as the normal form, which normalizing leaves as it is, so
nothing changes in what is generated, failures and the texts in them included.
-/

namespace ApiTypes
open Json (Node)

/-- The value with the member of an object under `key` changed. -/
def Json.mapMember (key : String) (f : Json → Json) : Json → Json
  | .object members => .object (members.map fun m => (m.1, if m.1 = key then f m.2 else m.2))
  | value => value

/-- The value with all members of an object changed. -/
def Json.mapMembers (f : Json → Json) : Json → Json
  | .object members => .object (members.map fun m => (m.1, f m.2))
  | value => value

theorem Json.member?_mapMember_same (key : String) (f : Json → Json) (value : Json) :
    (value.mapMember key f).member? key = (value.member? key).map f := by
  cases value with
  | object members =>
    simp only [mapMember, member?, Members.find?]
    induction members with
    | nil => rfl
    | cons m rest ih =>
      obtain ⟨k, v⟩ := m
      rw [List.map_cons, List.lookup_cons, List.lookup_cons]
      by_cases hk : k = key
      · subst hk
        simp
      · have hne : (key == k) = false := beq_eq_false_iff_ne.mpr (Ne.symm hk)
        rw [hne]
        exact ih
  | _ => rfl

theorem Json.member?_mapMember_of_ne {key other : String} (h : other ≠ key) (f : Json → Json)
    (value : Json) : (value.mapMember key f).member? other = value.member? other := by
  cases value with
  | object members =>
    simp only [mapMember, member?, Members.find?]
    induction members with
    | nil => rfl
    | cons m rest ih =>
      obtain ⟨k, v⟩ := m
      rw [List.map_cons, List.lookup_cons, List.lookup_cons, ih]
      by_cases hk : other = k
      · subst hk
        rw [if_neg h]
      · have hne : (other == k) = false := beq_eq_false_iff_ne.mpr hk
        rw [hne]
  | _ => rfl

namespace Schema

/-- What is written for the normal form of the schema that a value decodes to. -/
def normalForm (value : Json) : Json :=
  match Decoder.onValue decode value with
  | .ok s => s.normalize.toJson
  | .error _ => value

theorem normalForm_of_decode {value : Json} {s : Schema}
    (h : Decoder.onValue decode value = .ok s) : normalForm value = s.normalize.toJson := by
  rw [normalForm, h]

theorem decode_normalForm {value : Json} (hvalue : value.Distinct) {s : Schema}
    (h : Decoder.onValue decode value = .ok s) :
    Decoder.onValue decode (normalForm value) = .ok s.normalize := by
  have htidy := tidy_of_decode Json.hereditary_distinct value hvalue hvalue s h
  rw [normalForm_of_decode h]
  exact htidy.normalize.decode_toJson

theorem shape_normalize (s : Schema) : s.normalize.shape = s.shape := by
  rw [shape, shape, normalize_of_isNormal s.normalize (isNormal_normalize s)]

theorem decodesTo_normalForms {members : List (String × Json)} {named : List (String × Schema)}
    (hvalues : Json.DistinctMembers members) (h : DecodesTo decode members named) :
    DecodesTo decode (members.map fun m => (m.1, normalForm m.2))
      (named.map fun entry => (entry.1, entry.2.normalize)) := by
  induction h with
  | nil => exact .nil
  | cons hhead _ ih =>
    exact .cons ⟨hhead.1, decode_normalForm hvalues.1 hhead.2⟩ (ih hvalues.2)

end Schema

namespace Document

/-- The document with every named schema replaced by what is written for its normal form. -/
def withNormalSchemas (document : Json) : Json :=
  document.mapMember "components" (Json.mapMember "schemas" (Json.mapMembers Schema.normalForm))

theorem schemas?_withNormalSchemas (document : Json) :
    schemas? (withNormalSchemas document) =
      (schemas? document).map (Json.mapMembers Schema.normalForm) := by
  rw [schemas?, withNormalSchemas, Json.member?_mapMember_same, schemas?, Option.bind_map]
  cases document.member? "components" with
  | none => rfl
  | some components => exact Json.member?_mapMember_same "schemas" _ components

theorem lowered_normalize (named : List (String × Schema)) :
    lowered (named.map fun entry => (entry.1, entry.2.normalize)) = lowered named := by
  rw [lowered, Schema.ofList_map_snd, List.map_map, lowered]
  simp only [Function.comp_def, Schema.shape_normalize]

theorem definitions_withNormalSchemas {document : Json} (hdocument : document.Distinct)
    (hdecode : ∀ members, schemas? document = some (.object members) →
      ∀ m ∈ members, ∃ s, Decoder.onValue Schema.decode m.2 = .ok s) :
    definitions (withNormalSchemas document) = definitions document := by
  have hreplaced := schemas?_withNormalSchemas document
  cases hschemas : schemas? document with
  | none =>
    rw [hschemas] at hreplaced
    rw [definitions_of_missing hschemas, definitions_of_missing hreplaced]
  | some schemas =>
    rw [hschemas, Option.map_some] at hreplaced
    cases schemas with
    | object members =>
      obtain ⟨named, hnamed⟩ := exists_decodesTo_iff.mpr (hdecode members hschemas)
      have hvalues : Json.DistinctMembers members := (distinct_of_schemas? hdocument hschemas).2
      have hnormal := Schema.decodesTo_normalForms hvalues hnamed
      rw [definitions_of_declares hschemas ⟨members, rfl, hnamed⟩,
        definitions_of_declares hreplaced ⟨_, rfl, hnormal⟩, lowered_normalize]
    | _ =>
      rw [definitions, definitions, hreplaced, hschemas]
      rfl

/-- Normalizing all schemas of a document in advance changes nothing in what is generated:
neither a text nor a failure. -/
theorem generate_withNormalSchemas (options : Options) {document : Json}
    (hdocument : document.Distinct)
    (hdecode : ∀ members, schemas? document = some (.object members) →
      ∀ m ∈ members, ∃ s, Decoder.onValue Schema.decode m.2 = .ok s) :
    (∀ members, schemas? document = some (.object members) →
      ∃ printed, schemas? (withNormalSchemas document) = some (.object printed) ∧
        List.Forall₂ (fun m p => p.1 = m.1 ∧ ∃ s, Decoder.onValue Schema.decode m.2 = .ok s ∧
          p.2 = s.normalize.toJson ∧ p.2.compact = s.normalize.text) members printed) ∧
      generate options (withNormalSchemas document) = generate options document := by
  constructor
  · intro members hschemas
    refine ⟨_, by rw [schemas?_withNormalSchemas, hschemas]; rfl, ?_⟩
    rw [List.forall₂_map_right_iff, List.forall₂_same]
    intro m hm
    obtain ⟨s, hs⟩ := hdecode members hschemas m hm
    have hprinted := Schema.normalForm_of_decode hs
    exact ⟨rfl, s, hs, hprinted, by rw [hprinted]; rfl⟩
  · have hversion : checkVersion (withNormalSchemas document) = checkVersion document :=
      checkVersion_congr (Json.member?_mapMember_of_ne (by decide) _ document)
    rw [generate, generate, hversion, definitions_withNormalSchemas hdocument hdecode]

/-- A document with mixed nodes, in one of which a node with two composite keywords stands. -/
def mixedDocument : Json :=
  .object [("openapi", .string "3.0.3"), ("components", .object [("schemas", .object [
    ("A", .object [("enum", .array [.number (.integer 1)]), ("oneOf", .array [
      .object [("x-note", .null), ("type", .string "object"), ("anyOf", .array []),
        ("allOf", .array [.object [("items", .object []), ("oneOf", .array [])]])]]),
      ("nullable", .bool true)]),
    ("B", .object [("allOf", .array []), ("$ref", .string "#/components/schemas/A")])])])]

theorem generate_withNormalSchemas_conflicting :
    mixedDocument.Distinct ∧ withNormalSchemas mixedDocument ≠ mixedDocument ∧
      generate ⟨.codec, true⟩ (withNormalSchemas mixedDocument) =
        .error (.conflictingComposites "allOf, anyOf"
          ("\x7b\"allOf\":[\x7b\"oneOf\":[\x7b\"items\":\x7b\x7d\x7d]\x7d],\"anyOf\":[]," ++
            "\"type\":\"object\",\"x-note\":null\x7d")) := by
  have hdocument : mixedDocument.Distinct := by decide +kernel
  have hdecode : ∀ members, schemas? mixedDocument = some (.object members) →
      ∀ m ∈ members, ∃ s, Decoder.onValue Schema.decode m.2 = .ok s := by
    intro members hschemas
    obtain rfl := Json.object.inj (Option.some.inj hschemas)
    rw [List.forall_mem_cons, List.forall_mem_singleton]
    exact ⟨⟨_, rfl⟩, ⟨_, rfl⟩⟩
  obtain ⟨-, hsame⟩ := generate_withNormalSchemas ⟨.codec, true⟩ hdocument hdecode
  refine ⟨hdocument, by decide +kernel, ?_⟩
  rw [hsame]
  decide +kernel

end Document

end ApiTypes
