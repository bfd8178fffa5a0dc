import ApiTypes.Document
import ApiTypes.Proofs.Decoding
import ApiTypes.Proofs.Writing

/-!
# The stages of generation

A document passes three checks before anything is written: its version, the
presence of named schemas, and their decoding.  What is written for the
definitions then fails with the first fault of their nodes, whatever the output
type, and otherwise is the text `Document.moduleText`.
-/

namespace ApiTypes.Document

/-! ### What is written -/

def nodes (definitions : Definitions) : List Kind := definitions.flatMap fun entry => entry.2.nodes

/-- The declarations of the definitions, with the unknown type in place of faults. -/
def writtenDeclarations (t : Target) (definitions : Definitions) : List String :=
  definitions.map fun entry => t.declaration (Name.typeName entry.1) (t.written entry.2)

def targetText (t : Target) (definitions : Definitions) : String :=
  t.header ++ t.combine (writtenDeclarations t definitions)

def moduleText (definitions : Definitions) : OutputType → String
  | .typeScript => targetText .typeScript definitions
  | .flow => targetText .flow definitions
  | .codec => targetText .typeScript definitions ++ ";\n" ++ targetText .codec definitions

theorem declarations_eq (t : Target) (strict : Bool) (definitions : Definitions) :
    declarations ⟨t, strict⟩ definitions =
      unlessFault (firstFault strict (nodes definitions)) (writtenDeclarations t definitions) := by
  induction definitions with
  | nil => rfl
  | cons entry rest ih =>
    obtain ⟨name, s⟩ := entry
    rw [declarations, TypeWriter.shape_eq, ih]
    have hnodes : nodes ((name, s) :: rest) = s.nodes ++ nodes rest := List.flatMap_cons
    rw [hnodes, firstFault_append]
    exact bind_unlessFault₂ _ _ _ _ fun type others =>
      t.declaration (Name.typeName name) type :: others

theorem renderModule_eq (t : Target) (strict : Bool) (definitions : Definitions) :
    renderModule t strict definitions =
      unlessFault (firstFault strict (nodes definitions)) (targetText t definitions) := by
  rw [renderModule, declarations_eq, map_unlessFault]
  rfl

/-- Generation is the three checks and then the first fault of the nodes, if
there is one, or the text of the module. -/
theorem generate_eq (options : Options) (document : Json) :
    generate options document = (do
      checkVersion document
      let definitions ← definitions document
      unlessFault (firstFault options.exitOnInvalidType (nodes definitions))
        (moduleText definitions options.outputType)) := by
  rw [generate]
  refine bind_congr fun _ => bind_congr fun definitions => ?_
  cases options.outputType with
  | typeScript => exact renderModule_eq _ _ _
  | flow => exact renderModule_eq _ _ _
  | codec =>
    -- both halves meet the same faults, so the second fails only where the first has
    simp only [renderModule_eq, moduleText]
    cases firstFault options.exitOnInvalidType (nodes definitions) <;> rfl

/-! ### What is checked -/

/-- The version is `3.0.` and then decimal digits, at least one. -/
def Supported (document : Json) : Prop :=
  ∃ digits : List Char, document.member? "openapi" = some (.string (String.ofList
    ("3.0.".toList ++ digits))) ∧ digits ≠ [] ∧ ∀ c ∈ digits, Unicode.isDigit c = true

theorem isSupported_iff (version : String) :
    isSupported version = true ↔ ∃ digits : List Char,
      version.toList = "3.0.".toList ++ digits ∧ digits ≠ [] ∧
        ∀ c ∈ digits, Unicode.isDigit c = true := by
  unfold isSupported
  constructor
  · intro h
    split at h
    · rename_i patch heq
      simp only [Bool.and_eq_true, Bool.not_eq_true', List.isEmpty_eq_false_iff,
        List.all_eq_true] at h
      exact ⟨patch, heq, h.1, h.2⟩
    · cases h
  · rintro ⟨digits, heq, hne, hdigits⟩
    rw [heq]
    simpa [hne] using hdigits

theorem supported_iff (document : Json) :
    Supported document ↔ ∃ version, version? document = some version ∧
      isSupported version = true := by
  constructor
  · rintro ⟨digits, hmember, hne, hdigits⟩
    refine ⟨String.ofList ("3.0.".toList ++ digits), ?_, ?_⟩
    · simp [version?, hmember, Json.asString?]
    · exact (isSupported_iff _).mpr ⟨digits, by rw [String.toList_ofList], hne, hdigits⟩
  · rintro ⟨version, hversion, hsupported⟩
    obtain ⟨digits, heq, hne, hdigits⟩ := (isSupported_iff version).mp hsupported
    refine ⟨digits, ?_, hne, hdigits⟩
    rw [← heq, String.ofList_toList]
    obtain ⟨value, hvalue, hstring⟩ := Option.bind_eq_some_iff.mp hversion
    cases value with
    | string s =>
      obtain rfl := Option.some.inj hstring
      exact hvalue
    | _ => cases hstring

theorem checkVersion_of_supported {document : Json} (h : Supported document) :
    checkVersion document = .ok () := by
  obtain ⟨version, hversion, hsupported⟩ := (supported_iff document).mp h
  simp [checkVersion, hversion, hsupported]

theorem checkVersion_of_not_supported {document : Json} (h : ¬ Supported document) :
    checkVersion document = .error (.unsupportedVersion (version? document)) := by
  rw [supported_iff] at h
  cases hversion : version? document with
  | none => simp [checkVersion, hversion]
  | some version =>
    have hn : isSupported version = false := by
      by_contra hs
      exact h ⟨version, hversion, by simpa using hs⟩
    simp [checkVersion, hversion, hn]

/-- The named schemas of a value, decoded one by one in order. -/
def Declares (schemas : Json) (named : List (String × Schema)) : Prop :=
  ∃ members, schemas = .object members ∧ DecodesTo Schema.decode members named

/-- The definitions of named schemas: of a name that is repeated, the last
schema in the place of the first. -/
def lowered (named : List (String × Schema)) : Definitions :=
  (Members.ofList named).map fun entry => (entry.1, entry.2.shape)

theorem definitions_of_missing {document : Json} (h : schemas? document = none) :
    definitions document = .error .missingDefinitions := by
  simp [definitions, h]

theorem definitions_of_declares {document schemas : Json} {named : List (String × Schema)}
    (h : schemas? document = some schemas) (hnamed : Declares schemas named) :
    definitions document = .ok (lowered named) := by
  obtain ⟨members, hobject, hdecode⟩ := hnamed
  have hmap : Schema.decodeMap.onValue schemas = .ok (Members.ofList named) :=
    map_onValue_eq_ok_iff.mpr ⟨members, named, hobject, hdecode, rfl⟩
  simp [definitions, h, hmap, lowered]

theorem definitions_of_malformed {document schemas : Json} (h : schemas? document = some schemas)
    (hnot : ¬ ∃ named, Declares schemas named) :
    ∃ message, definitions document = .error (.malformedSchema message) := by
  cases hmap : Schema.decodeMap.onValue schemas with
  | ok result =>
    obtain ⟨members, named, hobject, hdecode, -⟩ := map_onValue_eq_ok_iff.mp hmap
    exact absurd ⟨named, members, hobject, hdecode⟩ hnot
  | error failure => exact ⟨failure.message, by simp [definitions, h, hmap]⟩

/-! ### When generation fails -/

/-- The schemas are no object, or one of them is not decoded. -/
def Malformed (schemas : Json) : Prop :=
  (∀ members, schemas ≠ .object members) ∨ ∃ members, schemas = .object members ∧
    ∃ member ∈ members, ∀ s, Decoder.onValue Schema.decode member.2 ≠ .ok s

theorem malformed_iff (schemas : Json) : Malformed schemas ↔ ¬ ∃ named, Declares schemas named := by
  constructor
  · rintro (hno | ⟨members, rfl, member, hmem, hfail⟩) ⟨named, members', hobject, hdecode⟩
    · exact hno members' hobject
    · obtain rfl := Json.object.inj hobject
      obtain ⟨s, hs⟩ := exists_decodesTo_iff.mp ⟨named, hdecode⟩ member hmem
      exact hfail s hs
  · intro hnot
    by_cases hobject : ∃ members, schemas = .object members
    · obtain ⟨members, rfl⟩ := hobject
      refine .inr ⟨members, rfl, ?_⟩
      by_contra hall
      push Not at hall
      obtain ⟨named, hdecode⟩ := exists_decodesTo_iff.mpr hall
      exact hnot ⟨named, members, rfl, hdecode⟩
    · exact .inl fun members he => hobject ⟨members, he⟩

theorem generate_cases (options : Options) (document : Json) :
    (¬ Supported document ∧
      generate options document = .error (.unsupportedVersion (version? document))) ∨
    (Supported document ∧ schemas? document = none ∧
      generate options document = .error .missingDefinitions) ∨
    (∃ schemas message, Supported document ∧ schemas? document = some schemas ∧
      Malformed schemas ∧ generate options document = .error (.malformedSchema message)) ∨
    (∃ schemas named, Supported document ∧ schemas? document = some schemas ∧
      ¬ Malformed schemas ∧ Declares schemas named ∧
      generate options document =
        unlessFault (firstFault options.exitOnInvalidType (nodes (lowered named)))
          (moduleText (lowered named) options.outputType)) := by
  rw [generate_eq]
  by_cases h : Supported document
  · rw [checkVersion_of_supported h]
    cases hschemas : schemas? document with
    | none =>
      rw [definitions_of_missing hschemas]
      exact .inr (.inl ⟨h, rfl, rfl⟩)
    | some schemas =>
      by_cases hm : Malformed schemas
      · obtain ⟨message, hmessage⟩ := definitions_of_malformed hschemas ((malformed_iff _).mp hm)
        rw [hmessage]
        exact .inr (.inr (.inl ⟨schemas, message, h, rfl, hm, rfl⟩))
      · obtain ⟨named, hnamed⟩ := not_not.mp (mt (malformed_iff schemas).mpr hm)
        rw [definitions_of_declares hschemas hnamed]
        exact .inr (.inr (.inr ⟨schemas, named, h, rfl, hm, hnamed, rfl⟩))
  · rw [checkVersion_of_not_supported h]
    exact .inl ⟨h, rfl⟩

theorem generate_eq_ok_iff (options : Options) (document : Json) (text : String) :
    generate options document = .ok text ↔
      Supported document ∧ ∃ members named, schemas? document = some (.object members) ∧
        DecodesTo Schema.decode members named ∧
        firstFault options.exitOnInvalidType (nodes (lowered named)) = none ∧
        moduleText (lowered named) options.outputType = text := by
  constructor
  · intro h
    rcases generate_cases options document with
      ⟨-, he⟩ | ⟨-, -, he⟩ | ⟨_, _, -, -, -, he⟩ | ⟨_, named, hs, hschemas, -, hnamed, he⟩
    · rw [he] at h
      cases h
    · rw [he] at h
      cases h
    · rw [he] at h
      cases h
    · rw [he, unlessFault_eq_ok_iff] at h
      obtain ⟨members, rfl, hdecode⟩ := hnamed
      exact ⟨hs, members, named, hschemas, hdecode, h⟩
  · rintro ⟨hs, members, named, hschemas, hdecode, h⟩
    rw [generate_eq, checkVersion_of_supported hs,
      definitions_of_declares hschemas ⟨members, rfl, hdecode⟩]
    exact (unlessFault_eq_ok_iff _ _ _).mpr h

theorem firstFault_eq_some_iff (strict : Bool) (ks : List Kind) (e : GenerationError) :
    firstFault strict ks = some e ↔ ∃ before k after, ks = before ++ k :: after ∧
      k.fault? strict = some e ∧ ∀ x ∈ before, x.fault? strict = none :=
  List.findSome?_eq_some_iff

theorem eq_of_firstFault {strict : Bool} {ks : List Kind} {e : GenerationError}
    (h : firstFault strict ks = some e) :
    (∃ source, e = .invalidType source) ∨
      ∃ words source, e = .conflictingComposites words source := by
  obtain ⟨_, k, _, -, hk, -⟩ := (firstFault_eq_some_iff strict ks e).mp h
  cases k with
  | unrecognized source =>
    cases strict with
    | false => cases hk
    | true => exact .inl ⟨source, (Option.some.inj hk).symm⟩
  | conflicting words source => exact .inr ⟨words, source, (Option.some.inj hk).symm⟩
  | _ => cases hk

theorem unsupportedVersion_iff (options : Options) (document : Json) :
    (∃ version, generate options document = .error (.unsupportedVersion version)) ↔
      ¬ Supported document := by
  rcases generate_cases options document with
    ⟨h, he⟩ | ⟨h, -, he⟩ | ⟨_, _, h, -, -, he⟩ | ⟨_, _, h, -, -, -, he⟩
  · simp [h, he]
  · simp [h, he]
  · simp [h, he]
  · simp only [he, h, unlessFault_eq_error_iff, not_true_eq_false, iff_false]
    rintro ⟨version, hfault⟩
    rcases eq_of_firstFault hfault with ⟨_, hc⟩ | ⟨_, _, hc⟩ <;> cases hc

theorem missingDefinitions_iff (options : Options) (document : Json) :
    generate options document = .error .missingDefinitions ↔
      Supported document ∧ schemas? document = none := by
  rcases generate_cases options document with
    ⟨h, he⟩ | ⟨h, hs, he⟩ | ⟨_, _, h, hs, -, he⟩ | ⟨_, _, h, hs, -, -, he⟩
  · simp [h, he]
  · simp [h, hs, he]
  · simp [hs, he]
  · simp only [he, h, hs, unlessFault_eq_error_iff, reduceCtorEq, and_false, iff_false]
    intro hfault
    rcases eq_of_firstFault hfault with ⟨_, hc⟩ | ⟨_, _, hc⟩ <;> cases hc

theorem malformedSchema_iff (options : Options) (document : Json) :
    (∃ message, generate options document = .error (.malformedSchema message)) ↔
      Supported document ∧ ∃ schemas, schemas? document = some schemas ∧ Malformed schemas := by
  rcases generate_cases options document with
    ⟨h, he⟩ | ⟨h, hs, he⟩ | ⟨schemas, _, h, hs, hm, he⟩ | ⟨schemas, _, h, hs, hm, -, he⟩
  · simp [h, he]
  · simp [hs, he]
  · simp [h, hs, hm, he]
  · simp only [he, h, hs, unlessFault_eq_error_iff, Option.some.injEq, exists_eq_left', hm,
      and_false, iff_false]
    rintro ⟨message, hfault⟩
    rcases eq_of_firstFault hfault with ⟨_, hc⟩ | ⟨_, _, hc⟩ <;> cases hc

theorem error_iff_of_declares (options : Options) {document schemas : Json}
    (h : Supported document) (hschemas : schemas? document = some schemas)
    (hm : ¬ Malformed schemas) :
    ∃ named, Declares schemas named ∧ ∀ e, generate options document = .error e ↔
      ∃ before k after, nodes (lowered named) = before ++ k :: after ∧
        k.fault? options.exitOnInvalidType = some e ∧
          ∀ x ∈ before, x.fault? options.exitOnInvalidType = none := by
  rcases generate_cases options document with
    ⟨hn, -⟩ | ⟨-, hs, -⟩ | ⟨_, _, -, hs, hbad, -⟩ | ⟨_, named, -, hs, -, hnamed, he⟩
  · exact absurd h hn
  · rw [hschemas] at hs
    cases hs
  · rw [hschemas] at hs
    obtain rfl := Option.some.inj hs
    exact absurd hbad hm
  · rw [hschemas] at hs
    obtain rfl := Option.some.inj hs
    refine ⟨named, hnamed, fun e => ?_⟩
    rw [he, unlessFault_eq_error_iff, firstFault_eq_some_iff]

theorem error_iff_error (outputType other : OutputType) (strict : Bool) (document : Json)
    (e : GenerationError) : generate ⟨other, strict⟩ document = .error e ↔
      generate ⟨outputType, strict⟩ document = .error e := by
  simp only [generate_eq]
  cases checkVersion document with
  | error failure => exact Iff.rfl
  | ok _ =>
    cases definitions document with
    | error failure => exact Iff.rfl
    | ok defs =>
      exact (unlessFault_eq_error_iff _ _ e).trans (unlessFault_eq_error_iff _ _ e).symm

theorem codec_module {strict : Bool} {document : Json} {text : String}
    (h : generate ⟨.codec, strict⟩ document = .ok text) :
    ∃ types codecs, generate ⟨.typeScript, strict⟩ document = .ok types ∧
      text = types ++ ";\n" ++ (Target.codec.header ++ codecs) := by
  rcases generate_cases ⟨.codec, strict⟩ document with
    ⟨-, he⟩ | ⟨-, -, he⟩ | ⟨_, _, -, -, -, he⟩ | ⟨_, named, hs, hschemas, -, hnamed, he⟩
  · rw [he] at h
    cases h
  · rw [he] at h
    cases h
  · rw [he] at h
    cases h
  · rw [he, unlessFault_eq_ok_iff] at h
    obtain ⟨hfault, rfl⟩ := h
    refine ⟨_, _, ?_, rfl⟩
    rw [generate_eq, checkVersion_of_supported hs, definitions_of_declares hschemas hnamed]
    exact (unlessFault_eq_ok_iff _ _ _).mpr ⟨hfault, rfl⟩

/-- When and how generation fails: at the version, at missing definitions, at a
malformed schema, or at the first faulty node, in this order and for every
output type alike.  A codec module begins with the TypeScript module. -/
theorem generate_failure_law (document : Json) (strict : Bool) (outputType : OutputType) :
    ((∃ version, generate ⟨outputType, strict⟩ document = .error (.unsupportedVersion version)) ↔
      ¬ Supported document) ∧
    (generate ⟨outputType, strict⟩ document = .error .missingDefinitions ↔
      Supported document ∧ schemas? document = none) ∧
    ((∃ message, generate ⟨outputType, strict⟩ document = .error (.malformedSchema message)) ↔
      Supported document ∧ ∃ schemas, schemas? document = some schemas ∧ Malformed schemas) ∧
    (∀ schemas, Supported document → schemas? document = some schemas → ¬ Malformed schemas →
      ∃ named, Declares schemas named ∧
        ∀ e, generate ⟨outputType, strict⟩ document = .error e ↔
          ∃ before k after, nodes (lowered named) = before ++ k :: after ∧
            k.fault? strict = some e ∧ ∀ x ∈ before, x.fault? strict = none) ∧
    (∀ other e, generate ⟨other, strict⟩ document = .error e ↔
      generate ⟨outputType, strict⟩ document = .error e) ∧
    (∀ text, generate ⟨.codec, strict⟩ document = .ok text →
      ∃ types codecs, generate ⟨.typeScript, strict⟩ document = .ok types ∧
        text = types ++ ";\n" ++ (Target.codec.header ++ codecs)) := by
  refine ⟨unsupportedVersion_iff _ _, missingDefinitions_iff _ _, malformedSchema_iff _ _,
    ?_, ?_, ?_⟩
  · intro schemas h hschemas hm
    exact error_iff_of_declares ⟨outputType, strict⟩ h hschemas hm
  · intro other e
    exact error_iff_error outputType other strict document e
  · intro text h
    exact codec_module h

end ApiTypes.Document
