import ApiTypes.Proofs.AnnotatedValues
import ApiTypes.Proofs.Generation

/-!
# Annotations never influence the types

Two documents that differ in annotations only, and in what stands outside their
named schemas, give the same text or fail alike: with the same kind of failure at
the same node.  Only the JSON text that such a failure quotes may differ.
-/

namespace ApiTypes

/-! ### The places of nodes -/

mutual

/-- The nodes of a shape in the order of `Shape.nodes`, each with its path: the number of
the part at every level. -/
def Shape.sites : Shape → List (List Nat × Kind)
  | .mk k _ => ([], k) :: Kind.innerSites k

def Kind.innerSites : Kind → List (List Nat × Kind)
  | .allOf members | .anyOf members | .oneOf members => Shape.listSites 0 members
  | .array item => (Shape.sites item).map fun site => (0 :: site.1, site.2)
  | .object fields => Field.listSites 0 fields
  | .reference _ | .enum _ | .number | .string | .boolean | .integer | .null
  | .unrecognized _ | .conflicting _ _ => []

def Shape.listSites (i : Nat) : List Shape → List (List Nat × Kind)
  | [] => []
  | s :: rest => ((Shape.sites s).map fun site => (i :: site.1, site.2)) ++
      Shape.listSites (i + 1) rest

def Field.listSites (i : Nat) : List Field → List (List Nat × Kind)
  | [] => []
  | .mk _ _ s :: rest => ((Shape.sites s).map fun site => (i :: site.1, site.2)) ++
      Field.listSites (i + 1) rest

end

theorem map_snd_below (i : Nat) (sites : List (List Nat × Kind)) :
    (sites.map fun site => (i :: site.1, site.2)).map Prod.snd = sites.map Prod.snd := by
  rw [List.map_map]
  rfl

mutual

theorem Shape.map_snd_sites : ∀ s : Shape, s.sites.map Prod.snd = s.nodes
  | .mk k _ => congrArg (k :: ·) (Kind.map_snd_innerSites k)

theorem Kind.map_snd_innerSites : ∀ k : Kind, k.innerSites.map Prod.snd = k.inner
  | .allOf members | .anyOf members | .oneOf members => Shape.map_snd_listSites 0 members
  | .array item => (map_snd_below 0 item.sites).trans (Shape.map_snd_sites item)
  | .object fields => Field.map_snd_listSites 0 fields
  | .reference _ | .enum _ | .number | .string | .boolean | .integer | .null
  | .unrecognized _ | .conflicting _ _ => rfl

theorem Shape.map_snd_listSites (i : Nat) : ∀ members : List Shape,
    (Shape.listSites i members).map Prod.snd = Shape.listNodes members
  | [] => rfl
  | s :: rest => by
    rw [Shape.listSites, Shape.listNodes, List.map_append, map_snd_below, Shape.map_snd_sites s,
      Shape.map_snd_listSites (i + 1) rest]

theorem Field.map_snd_listSites (i : Nat) : ∀ fields : List Field,
    (Field.listSites i fields).map Prod.snd = Field.listNodes fields
  | [] => rfl
  | .mk _ _ s :: rest => by
    rw [Field.listSites, Field.listNodes, List.map_append, map_snd_below, Shape.map_snd_sites s,
      Field.map_snd_listSites (i + 1) rest]

end

/-- A site with the outline of its node. -/
def outlineSite {α : Type} (site : α × Kind) : α × Kind := (site.1, site.2.outline)

theorem map_outlineSite_below (i : Nat) (sites : List (List Nat × Kind)) :
    (sites.map outlineSite).map (fun site => (i :: site.1, site.2)) =
      (sites.map fun site => (i :: site.1, site.2)).map outlineSite := by
  rw [List.map_map, List.map_map]
  rfl

mutual

theorem Shape.sites_outline : ∀ s : Shape, s.outline.sites = s.sites.map outlineSite
  | .mk k _ => by
    rw [Shape.outline, Shape.sites, Shape.sites, List.map_cons, Kind.innerSites_outline k]
    rfl

theorem Kind.innerSites_outline : ∀ k : Kind, k.outline.innerSites = k.innerSites.map outlineSite
  | .allOf members | .anyOf members | .oneOf members => Shape.listSites_outline 0 members
  | .array item => by
    rw [Kind.outline, Kind.innerSites, Kind.innerSites, Shape.sites_outline item,
      map_outlineSite_below]
  | .object fields => Field.listSites_outline 0 fields
  | .reference _ | .enum _ | .number | .string | .boolean | .integer | .null
  | .unrecognized _ | .conflicting _ _ => rfl

theorem Shape.listSites_outline (i : Nat) : ∀ members : List Shape,
    Shape.listSites i (Shape.listOutline members) = (Shape.listSites i members).map outlineSite
  | [] => rfl
  | s :: rest => by
    rw [Shape.listOutline, Shape.listSites, Shape.listSites, List.map_append,
      Shape.sites_outline s, map_outlineSite_below, Shape.listSites_outline (i + 1) rest]

theorem Field.listSites_outline (i : Nat) : ∀ fields : List Field,
    Field.listSites i (Field.listOutline fields) = (Field.listSites i fields).map outlineSite
  | [] => rfl
  | .mk _ _ s :: rest => by
    rw [Field.listOutline, Field.listSites, Field.listSites, List.map_append,
      Shape.sites_outline s, map_outlineSite_below, Field.listSites_outline (i + 1) rest]

end

/-- A failure without the text that it quotes. -/
def GenerationError.outline : GenerationError → GenerationError
  | .invalidType _ => .invalidType ""
  | .conflictingComposites keywords _ => .conflictingComposites keywords ""
  | e => e

theorem Kind.fault?_outline (strict : Bool) (k : Kind) :
    k.outline.fault? strict = (k.fault? strict).map GenerationError.outline := by
  cases k with
  | unrecognized source => cases strict <;> rfl
  | _ => rfl

section
variable {α : Type} (strict : Bool) (sites : List (α × Kind))

/-- The first failure among labelled nodes, and the label of its node. -/
def firstFailure : Option (α × GenerationError) :=
  sites.findSome? fun site => (site.2.fault? strict).map fun e => (site.1, e)

theorem firstFault_map_snd :
    firstFault strict (sites.map Prod.snd) = (firstFailure strict sites).map Prod.snd := by
  rw [firstFault, firstFailure, List.findSome?_map, List.map_findSome?]
  congr 1
  funext site
  show site.2.fault? strict = Option.map Prod.snd ((site.2.fault? strict).map _)
  cases site.2.fault? strict <;> rfl

theorem firstFailure_outline : firstFailure strict (sites.map outlineSite) =
    (firstFailure strict sites).map fun failure => (failure.1, failure.2.outline) := by
  rw [firstFailure, firstFailure, List.findSome?_map, List.map_findSome?]
  congr 1
  funext site
  show Option.map _ (site.2.outline.fault? strict) = Option.map _ ((site.2.fault? strict).map _)
  rw [Kind.fault?_outline]
  cases site.2.fault? strict <;> rfl

theorem fault_of_firstFailure {label : α} {e : GenerationError}
    (h : firstFailure strict sites = some (label, e)) :
    firstFault strict (sites.map Prod.snd) = some e := by
  rw [firstFault_map_snd, h]
  rfl

variable {strict sites}

/-- Nodes with the same labels and outlines fail alike: at the same label, and but for the
text that is quoted. -/
theorem firstFailure_alike {others : List (α × Kind)}
    (houtlines : others.map outlineSite = sites.map outlineSite) {label : α}
    {e : GenerationError} (h : firstFailure strict sites = some (label, e)) :
    (∃ source other, e = .invalidType source ∧
      firstFailure strict others = some (label, .invalidType other)) ∨
    (∃ keywords source other, e = .conflictingComposites keywords source ∧
      firstFailure strict others = some (label, .conflictingComposites keywords other)) := by
  have hsame := firstFailure_outline strict sites
  rw [← houtlines, firstFailure_outline, h, Option.map_some] at hsame
  obtain ⟨⟨label', e'⟩, hother, he⟩ := Option.map_eq_some_iff.mp hsame
  obtain ⟨rfl, he⟩ := Prod.mk.inj he
  rw [hother]
  have hfault := fault_of_firstFailure strict sites h
  have hfault' := fault_of_firstFailure strict others hother
  rcases Document.eq_of_firstFault hfault with ⟨source, rfl⟩ | ⟨keywords, source, rfl⟩
  · rcases Document.eq_of_firstFault hfault' with ⟨other, rfl⟩ | ⟨_, other, rfl⟩
    · exact .inl ⟨source, other, rfl, rfl⟩
    · cases he
  · rcases Document.eq_of_firstFault hfault' with ⟨other, rfl⟩ | ⟨words, other, rfl⟩
    · cases he
    · obtain ⟨rfl, -⟩ := GenerationError.conflictingComposites.inj he
      exact .inr ⟨_, source, other, rfl, rfl⟩

end

namespace Document

/-- A node of a document: the name of the schema that it is in and its path there. -/
structure Place where
  name : String
  path : List Nat
deriving DecidableEq, Repr

def sites (definitions : Definitions) : List (Place × Kind) :=
  definitions.flatMap fun entry => entry.2.sites.map fun site => (⟨entry.1, site.1⟩, site.2)

/-- The first failure among the nodes of the definitions, and the place of its node. -/
def failure? (strict : Bool) (definitions : Definitions) : Option (Place × GenerationError) :=
  (sites definitions).findSome? fun site => (site.2.fault? strict).map fun e => (site.1, e)

/-- The definitions without the texts that diagnostics quote. -/
def outlines (definitions : Definitions) : Definitions :=
  definitions.map fun entry => (entry.1, entry.2.outline)

theorem map_snd_sites (definitions : Definitions) :
    (sites definitions).map Prod.snd = nodes definitions := by
  rw [sites, nodes, List.map_flatMap]
  congr 1
  funext entry
  rw [List.map_map, ← Shape.map_snd_sites]
  rfl

theorem sites_outlines (definitions : Definitions) :
    sites (outlines definitions) = (sites definitions).map outlineSite := by
  rw [sites, sites, outlines, List.flatMap_map, List.map_flatMap]
  congr 1
  funext entry
  rw [Shape.sites_outline, List.map_map, List.map_map]
  rfl

theorem firstFault_eq (strict : Bool) (definitions : Definitions) :
    firstFault strict (nodes definitions) = (failure? strict definitions).map Prod.snd := by
  rw [← map_snd_sites]
  exact firstFault_map_snd strict (sites definitions)

theorem failure?_outlines (strict : Bool) (definitions : Definitions) :
    failure? strict (outlines definitions) =
      (failure? strict definitions).map fun failure => (failure.1, failure.2.outline) := by
  rw [failure?, sites_outlines]
  exact firstFailure_outline strict (sites definitions)

theorem moduleText_outlines (definitions : Definitions) (outputType : OutputType) :
    moduleText (outlines definitions) outputType = moduleText definitions outputType := by
  have htarget : ∀ t : Target, targetText t (outlines definitions) = targetText t definitions := by
    intro t
    have hdeclarations :
        writtenDeclarations t (outlines definitions) = writtenDeclarations t definitions := by
      rw [writtenDeclarations, writtenDeclarations, outlines, List.map_map]
      congr 1
      funext entry
      show t.declaration _ (t.written entry.2.outline) = _
      rw [Target.written_outline]
    rw [targetText, targetText, hdeclarations]
  cases outputType <;> simp only [moduleText, htarget]

/-! ### Documents that differ in annotations -/

/-- The documents have the same version and, but for annotations in schema objects, the
same named schemas. -/
structure AnnotatedAlike (a b : Json) : Prop where
  version : a.member? "openapi" = b.member? "openapi"
  schemas : (schemas? a).map Schema.plainMap = (schemas? b).map Schema.plainMap

instance (a b : Json) : Decidable (AnnotatedAlike a b) :=
  decidable_of_iff (a.member? "openapi" = b.member? "openapi" ∧
      (schemas? a).map Schema.plainMap = (schemas? b).map Schema.plainMap)
    ⟨fun h => ⟨h.1, h.2⟩, fun h => ⟨h.version, h.schemas⟩⟩

/-- Generation fails with `e` because of the node at `place`, the first that fails. -/
def FailsAt (options : Options) (document : Json) (place : Place) (e : GenerationError) : Prop :=
  ∃ defs, definitions document = .ok defs ∧
    failure? options.exitOnInvalidType defs = some (place, e)

/-- Failures of two documents that differ at most in the texts of the nodes they quote. -/
inductive SameFailure (options : Options) (a b : Json) : GenerationError → GenerationError → Prop
  | version (version : Option String) :
    SameFailure options a b (.unsupportedVersion version) (.unsupportedVersion version)
  | definitions : SameFailure options a b .missingDefinitions .missingDefinitions
  | schema (message : String) :
    SameFailure options a b (.malformedSchema message) (.malformedSchema message)
  | type {place : Place} {source other : String}
    (ha : FailsAt options a place (.invalidType source))
    (hb : FailsAt options b place (.invalidType other)) :
    SameFailure options a b (.invalidType source) (.invalidType other)
  | composites {place : Place} {keywords source other : String}
    (ha : FailsAt options a place (.conflictingComposites keywords source))
    (hb : FailsAt options b place (.conflictingComposites keywords other)) :
    SameFailure options a b (.conflictingComposites keywords source)
      (.conflictingComposites keywords other)

theorem checkVersion_congr {a b : Json} (h : a.member? "openapi" = b.member? "openapi") :
    checkVersion a = checkVersion b := by
  rw [checkVersion, checkVersion, version?, version?, h]

theorem distinct_of_member? {key : String} {document value : Json} (hdocument : document.Distinct)
    (h : document.member? key = some value) : value.Distinct := by
  cases document with
  | object members =>
    have hmem := (Members.find?_eq_some_iff_mem hdocument.1).mp h
    exact Json.distinctMembers_iff.mp hdocument.2 _ hmem
  | _ => cases h

theorem distinct_of_schemas? {document schemas : Json} (hdocument : document.Distinct)
    (h : schemas? document = some schemas) : schemas.Distinct := by
  obtain ⟨components, hcomponents, hschemas⟩ := Option.bind_eq_some_iff.mp h
  exact distinct_of_member? (distinct_of_member? hdocument hcomponents) hschemas

/-- What the outlines of the definitions are is settled by the named schemas without
their annotations. -/
theorem outlines_definitions {document : Json} (hdocument : document.Distinct) :
    (definitions document).map outlines =
      match (schemas? document).map Schema.plainMap with
      | none => .error .missingDefinitions
      | some schemas =>
        match Schema.decodeMap.onValue schemas with
        | .ok named => .ok (named.map fun entry => (entry.1, entry.2.shape.outline))
        | .error failure => .error (.malformedSchema failure.message) := by
  rw [definitions]
  cases hschemas : schemas? document with
  | none => rfl
  | some schemas =>
    have hplain := Schema.decodeMap_plainMap schemas (distinct_of_schemas? hdocument hschemas)
    simp only [Option.map_some, hplain]
    cases Schema.decodeMap.onValue schemas with
    | error failure => rfl
    | ok named =>
      have houtline : ∀ s : Schema, s.plain.shape.outline = s.shape.outline :=
        Schema.outline_shape_plain
      simp [Except.map, outlines, houtline]

theorem sameFailure_of_failure? {options : Options} {a b : Json} {defs others : Definitions}
    (ha : definitions a = .ok defs) (hb : definitions b = .ok others)
    (houtlines : outlines defs = outlines others) {place : Place} {e : GenerationError}
    (hfailure : failure? options.exitOnInvalidType defs = some (place, e)) :
    ∃ e', failure? options.exitOnInvalidType others = some (place, e') ∧
      SameFailure options a b e e' := by
  have hsites : (sites others).map outlineSite = (sites defs).map outlineSite := by
    rw [← sites_outlines, ← sites_outlines, houtlines]
  rcases firstFailure_alike hsites hfailure with
    ⟨source, other, rfl, hother⟩ | ⟨keywords, source, other, rfl, hother⟩
  · exact ⟨_, hother, .type ⟨defs, ha, hfailure⟩ ⟨others, hb, hother⟩⟩
  · exact ⟨_, hother, .composites ⟨defs, ha, hfailure⟩ ⟨others, hb, hother⟩⟩

theorem sameFailure_of_checkVersion {options : Options} {a b : Json} {e : GenerationError}
    (h : checkVersion a = .error e) : SameFailure options a b e e := by
  by_cases hsupported : Supported a
  · rw [checkVersion_of_supported hsupported] at h
    cases h
  · rw [checkVersion_of_not_supported hsupported] at h
    obtain rfl := Except.error.inj h
    exact .version _

theorem sameFailure_of_definitions {options : Options} {a b : Json} {e : GenerationError}
    (h : definitions a = .error e) : SameFailure options a b e e := by
  rw [definitions] at h
  split at h
  · obtain rfl := Except.error.inj h
    exact .definitions
  · split at h
    · cases h
    · obtain rfl := Except.error.inj h
      exact .schema _

/-- Definitions with the same outlines are written alike, or fail alike. -/
theorem outcomes_of_outlines (options : Options) {a b : Json} {defs others : Definitions}
    (ha : definitions a = .ok defs) (hb : definitions b = .ok others)
    (houtlines : outlines defs = outlines others) :
    let outcome := fun written : Definitions =>
      unlessFault (firstFault options.exitOnInvalidType (nodes written))
        (moduleText written options.outputType)
    (∃ text, outcome defs = .ok text ∧ outcome others = .ok text) ∨
    (∃ e e', outcome defs = .error e ∧ outcome others = .error e' ∧
      SameFailure options a b e e') := by
  intro outcome
  have htext := moduleText_outlines others options.outputType
  rw [← houtlines, moduleText_outlines] at htext
  simp only [outcome, firstFault_eq]
  cases hfailure : failure? options.exitOnInvalidType defs with
  | none =>
    have hnone : failure? options.exitOnInvalidType others = none := by
      have hsame := failure?_outlines options.exitOnInvalidType defs
      rw [houtlines, failure?_outlines, hfailure] at hsame
      exact Option.map_eq_none_iff.mp hsame
    rw [hnone, htext]
    exact .inl ⟨_, rfl, rfl⟩
  | some failure =>
    obtain ⟨place, e⟩ := failure
    obtain ⟨e', hother, hsame⟩ := sameFailure_of_failure? ha hb houtlines hfailure
    rw [hother]
    exact .inr ⟨e, e', rfl, rfl, hsame⟩

/-- Documents that differ in annotations only give the same text, or fail alike. -/
theorem annotations_never_matter (options : Options) {a b : Json} (ha : a.Distinct)
    (hb : b.Distinct) (h : AnnotatedAlike a b) :
    (∃ text, generate options a = .ok text ∧ generate options b = .ok text) ∨
    (∃ e e', generate options a = .error e ∧ generate options b = .error e' ∧
      SameFailure options a b e e') := by
  have hversion := checkVersion_congr h.version
  have hdefs : (definitions a).map outlines = (definitions b).map outlines := by
    rw [outlines_definitions ha, outlines_definitions hb, h.schemas]
  rw [generate_eq, generate_eq, ← hversion]
  cases hcheck : checkVersion a with
  | error e => exact .inr ⟨e, e, rfl, rfl, sameFailure_of_checkVersion hcheck⟩
  | ok _ =>
    cases hda : definitions a with
    | error e =>
      cases hdb : definitions b with
      | error e' =>
        rw [hda, hdb] at hdefs
        obtain rfl : e = e' := Except.error.inj hdefs
        exact .inr ⟨e, e, rfl, rfl, sameFailure_of_definitions hda⟩
      | ok others =>
        rw [hda, hdb] at hdefs
        cases hdefs
    | ok defs =>
      cases hdb : definitions b with
      | error e' =>
        rw [hda, hdb] at hdefs
        cases hdefs
      | ok others =>
        rw [hda, hdb] at hdefs
        have houtlines : outlines defs = outlines others := Except.ok.inj hdefs
        exact outcomes_of_outlines options hda hdb houtlines

/-- A schema with two composite keywords below a field, beside annotations. -/
def annotatedDocument : Json :=
  .object [("info", .object [("title", .string "annotated")]), ("openapi", .string "3.0.1"),
    ("components", .object [("schemas", .object [("A", .object [
      ("description", .string "outer"), ("type", .string "object"), ("properties", .object [
        ("p", .object [("format", .string "date"), ("type", .string "string")]),
        ("q", .object [("allOf", .array []), ("x-note", .null), ("oneOf", .array []),
          ("nullable", .bool false)])])])])])]

def bareDocument : Json :=
  .object [("openapi", .string "3.0.1"), ("components", .object [("schemas", .object [
    ("A", .object [("type", .string "object"), ("properties", .object [
      ("p", .object [("type", .string "string")]),
      ("q", .object [("allOf", .array []), ("oneOf", .array [])])])])])])]

theorem annotations_never_matter_below_field :
    annotatedDocument.Distinct ∧ bareDocument.Distinct ∧
      AnnotatedAlike annotatedDocument bareDocument ∧
      ∃ e e', generate {} annotatedDocument = .error e ∧ generate {} bareDocument = .error e' ∧
        e ≠ e' ∧ SameFailure {} annotatedDocument bareDocument e e' := by
  have ha : annotatedDocument.Distinct := by decide +kernel
  have hb : bareDocument.Distinct := by decide +kernel
  have h : AnnotatedAlike annotatedDocument bareDocument := by decide +kernel
  have hdifferent : generate {} annotatedDocument ≠ generate {} bareDocument := by decide +kernel
  refine ⟨ha, hb, h, ?_⟩
  rcases annotations_never_matter {} ha hb h with ⟨text, hta, htb⟩ | ⟨e, e', hea, heb, hsame⟩
  · exact absurd (hta.trans htb.symm) hdifferent
  · refine ⟨e, e', hea, heb, ?_, hsame⟩
    rintro rfl
    exact hdifferent (hea.trans heb.symm)

end Document

end ApiTypes
