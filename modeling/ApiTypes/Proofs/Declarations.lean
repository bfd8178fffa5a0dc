import ApiTypes.Proofs.Generation
import ApiTypes.Proofs.Lines

/-!
# Declarations of a module

A module holds one declaration for each named schema, and each is the identifier
of its schema and the type that this schema alone is written as.  Where a module
is split at its separator, the pieces are the declarations.  Static modules are
split at line breaks, which single quotes let through: there the pieces are the
declarations if and only if no value of an enumeration holds a line break.
-/

namespace ApiTypes
open Text (OneLine oneLine_append oneLine_between oneLine_joinWith oneLine_quote
  oneLine_literalUnion oneLine_identifier)

/-! ### Line breaks of a type -/

namespace Target

/-- The rules of a target put no line break into a type and take none out.  An
enumeration is left on one line where its values have the property `Fit`. -/
structure KeepsLines (t : Target) (Fit : List String → Prop) : Prop where
  string : OneLine t.string
  number : OneLine t.number
  boolean : OneLine t.boolean
  null : OneLine t.null
  unknown : OneLine t.unknown
  array (item : String) : OneLine (t.array item) ↔ OneLine item
  union (members : List String) : OneLine (t.union members) ↔ ∀ type ∈ members, OneLine type
  intersection (members : List String) :
    OneLine (t.intersection members) ↔ ∀ type ∈ members, OneLine type
  field (name : String) (required : Bool) (type : String) :
    OneLine (t.field name required type) ↔ OneLine type
  object (fields : List String) : OneLine (t.object fields) ↔ ∀ field ∈ fields, OneLine field
  enum (values : List String) : OneLine (t.enum values) ↔ Fit values
  reference (name : String) : OneLine (t.reference name) ↔ OneLine name
  nullable (type : String) : OneLine (t.nullable type) ↔ OneLine type

theorem oneLine_record (fields : List String) :
    OneLine (record fields) ↔ ∀ field ∈ fields, OneLine field :=
  (oneLine_between (by decide) (by decide) _).trans (oneLine_joinWith (by decide) fields)

theorem oneLine_grouped {separator empty : String} (hsep : OneLine separator)
    (hempty : OneLine empty) (members : List String) :
    OneLine (grouped separator empty members) ↔ ∀ type ∈ members, OneLine type := by
  cases members with
  | nil => simpa [grouped] using hempty
  | cons type members =>
    exact (oneLine_between (by decide) (by decide) _).trans (oneLine_joinWith hsep _)

theorem oneLine_recordField (name : String) (required : Bool) (type : String) :
    OneLine (recordField name required type) ↔ OneLine type := by
  have hmark : OneLine (if required then "" else "?") := by cases required <;> decide
  have hcolon : OneLine ":" := by decide
  simp only [recordField, oneLine_append, oneLine_quote, hmark, hcolon, true_and]

theorem oneLine_literals {empty : String} (hempty : OneLine empty) (values : List String) :
    OneLine (literals empty values) ↔ ∀ value ∈ values, OneLine value := by
  cases values with
  | nil => simpa [literals] using hempty
  | cons value values => exact oneLine_literalUnion (value :: values)

theorem keepsLines_static {unknown never : String} {nullable : String → String}
    (header : String) (hunknown : OneLine unknown) (hnever : OneLine never)
    (hnullable : ∀ type, OneLine (nullable type) ↔ OneLine type) :
    (static unknown never nullable header).KeepsLines
      fun values => ∀ value ∈ values, OneLine value where
  string := (by decide : OneLine "string")
  number := (by decide : OneLine "number")
  boolean := (by decide : OneLine "boolean")
  null := (by decide : OneLine "null")
  unknown := hunknown
  array := oneLine_between (by decide) (by decide)
  union := oneLine_grouped (by decide) hnever
  intersection := oneLine_grouped (by decide) hunknown
  field := oneLine_recordField
  object := oneLine_record
  enum := oneLine_literals hnever
  reference _ := Iff.rfl
  nullable := hnullable

theorem keepsLines_typeScript :
    typeScript.KeepsLines fun values => ∀ value ∈ values, OneLine value :=
  keepsLines_static "" (by decide) (by decide) (oneLine_between (by decide) (by decide))

theorem keepsLines_flow : flow.KeepsLines fun values => ∀ value ∈ values, OneLine value :=
  keepsLines_static "// @flow\n" (by decide) (by decide) fun _ =>
    (oneLine_append _ _).trans (and_iff_right (by decide))

theorem oneLine_combinator {name empty : String} (hname : OneLine name) (hempty : OneLine empty)
    (members : List String) :
    OneLine (combinator name empty members) ↔ ∀ type ∈ members, OneLine type := by
  match members with
  | [] => simpa [combinator] using hempty
  | [member] => simp [combinator]
  | first :: second :: members =>
    have hopening : OneLine ("t." ++ name ++ "([") :=
      (oneLine_between (by decide) (by decide) name).mpr hname
    exact (oneLine_between hopening (by decide) _).trans (oneLine_joinWith (by decide) _)

theorem oneLine_codecField (name : String) (required : Bool) (type : String) :
    OneLine (codecField name required type) ↔ OneLine type := by
  have hkey : ∀ mark, OneLine mark → OneLine (Text.quote name ++ mark) := fun mark hmark =>
    (oneLine_append _ _).mpr ⟨oneLine_quote name, hmark⟩
  cases required with
  | true => exact (oneLine_append _ _).trans (and_iff_right (hkey ":" (by decide)))
  | false => exact oneLine_between (hkey ":t.union([" (by decide)) (by decide) type

theorem oneLine_keyOf (values : List String) : OneLine (keyOf values) := by
  cases values with
  | nil => decide
  | cons value values =>
    apply (oneLine_between (by decide) (by decide) _).mpr
    rw [oneLine_record, List.forall_mem_map]
    intro key _
    exact (oneLine_append _ _).mpr ⟨oneLine_quote key, by decide⟩

/-- Double quotes let no line break through, so every enumeration fits. -/
theorem keepsLines_codec : codec.KeepsLines fun _ => True where
  string := by decide
  number := by decide
  boolean := by decide
  null := by decide
  unknown := by decide
  array := oneLine_between (by decide) (by decide)
  union := oneLine_combinator (by decide) (by decide)
  intersection := oneLine_combinator (by decide) (by decide)
  field := oneLine_codecField
  object fields := (oneLine_between (by decide) (by decide) _).trans (oneLine_record fields)
  enum values := iff_of_true (oneLine_keyOf values) trivial
  reference _ := Iff.rfl
  nullable := oneLine_between (by decide) (by decide)

section Written
variable {t : Target} {Fit : List String → Prop}

/-- Whether every enumeration among the nodes fits. -/
def FitsAll (Fit : List String → Prop) (nodes : List Kind) : Prop :=
  ∀ values, Kind.enum values ∈ nodes → Fit values

theorem fitsAll_append (a b : List Kind) :
    FitsAll Fit (a ++ b) ↔ FitsAll Fit a ∧ FitsAll Fit b := by
  simp only [FitsAll, List.mem_append, or_imp, forall_and]

theorem fitsAll_cons {k : Kind} (hk : ∀ values, k ≠ .enum values) (nodes : List Kind) :
    FitsAll Fit (k :: nodes) ↔ FitsAll Fit nodes := by
  constructor
  · intro h values hmem
    exact h values (List.mem_cons_of_mem k hmem)
  · intro h values hmem
    rcases List.mem_cons.mp hmem with he | hmem
    · exact absurd he.symm (hk values)
    · exact h values hmem

theorem fitsAll_nil : FitsAll Fit [] := fun _ h => nomatch h

theorem fitsAll_leaf {k : Kind} (hk : ∀ values, k ≠ .enum values) : FitsAll Fit [k] :=
  (fitsAll_cons hk []).mpr fitsAll_nil

theorem fitsAll_enum (values : List String) : FitsAll Fit [.enum values] ↔ Fit values := by
  constructor
  · exact fun h => h values List.mem_cons_self
  · intro h other hmem
    obtain rfl := Kind.enum.inj (List.mem_singleton.mp hmem)
    exact h

mutual

theorem oneLine_written (ht : t.KeepsLines Fit) : ∀ s : Shape,
    OneLine (t.written s) ↔ FitsAll Fit s.nodes
  | .mk k nullable => by
    have hk := oneLine_writtenKind ht k
    cases nullable with
    | false => exact hk
    | true => exact (ht.nullable _).trans hk

theorem oneLine_writtenKind (ht : t.KeepsLines Fit) : ∀ k : Kind,
    OneLine (t.writtenKind k) ↔ FitsAll Fit (k :: k.inner)
  | .reference path =>
    iff_of_true ((ht.reference _).mpr (oneLine_identifier (Name.isIdentifier_referenceName path)))
      (fitsAll_leaf (by nofun))
  | .allOf members =>
    (ht.intersection _).trans
      ((oneLine_writtenList ht members).trans (fitsAll_cons (by nofun) _).symm)
  | .anyOf members =>
    (ht.union _).trans ((oneLine_writtenList ht members).trans (fitsAll_cons (by nofun) _).symm)
  | .oneOf members =>
    (ht.union _).trans ((oneLine_writtenList ht members).trans (fitsAll_cons (by nofun) _).symm)
  | .array item =>
    (ht.array _).trans ((oneLine_written ht item).trans (fitsAll_cons (by nofun) _).symm)
  | .object fields =>
    (ht.object _).trans ((oneLine_writtenFields ht fields).trans (fitsAll_cons (by nofun) _).symm)
  | .enum values => (ht.enum values).trans (fitsAll_enum values).symm
  | .number => iff_of_true ht.number (fitsAll_leaf (by nofun))
  | .string => iff_of_true ht.string (fitsAll_leaf (by nofun))
  | .boolean => iff_of_true ht.boolean (fitsAll_leaf (by nofun))
  | .integer => iff_of_true ht.number (fitsAll_leaf (by nofun))
  | .null => iff_of_true ht.null (fitsAll_leaf (by nofun))
  | .unrecognized _ => iff_of_true ht.unknown (fitsAll_leaf (by nofun))
  | .conflicting _ _ => iff_of_true ht.unknown (fitsAll_leaf (by nofun))

theorem oneLine_writtenList (ht : t.KeepsLines Fit) : ∀ members : List Shape,
    (∀ type ∈ t.writtenList members, OneLine type) ↔ FitsAll Fit (Shape.listNodes members)
  | [] => iff_of_true (fun _ h => nomatch h) fitsAll_nil
  | s :: rest => by
    rw [writtenList, List.forall_mem_cons, Shape.listNodes, fitsAll_append, oneLine_written ht s,
      oneLine_writtenList ht rest]

theorem oneLine_writtenFields (ht : t.KeepsLines Fit) : ∀ fields : List Field,
    (∀ field ∈ t.writtenFields fields, OneLine field) ↔ FitsAll Fit (Field.listNodes fields)
  | [] => iff_of_true (fun _ h => nomatch h) fitsAll_nil
  | .mk name required s :: rest => by
    rw [writtenFields, List.forall_mem_cons, Field.listNodes, fitsAll_append, ht.field,
      oneLine_written ht s, oneLine_writtenFields ht rest]

end

end Written

end Target

/-! ### The declarations of a document -/

namespace Document
open Target (FitsAll KeepsLines)

/-- The named schemas as their object holds them: a name that is repeated stands
in its first place, with its last schema. -/
def entries (document : Json) : List (String × Json) :=
  match schemas? document with
  | some (.object members) => Members.ofList members
  | _ => []

/-- The declaration of one named schema, written by itself. -/
def IsDeclaration (opening : String) (w : TypeWriter) (entry : String × Json)
    (text : String) : Prop :=
  ∃ s type, Decoder.onValue Schema.decode entry.2 = .ok s ∧ w.shape s.shape = .ok type ∧
    text = opening ++ Name.typeName entry.1 ++ "=" ++ type

theorem entries_eq {document : Json} {members : List (String × Json)}
    (h : schemas? document = some (.object members)) :
    entries document = Members.ofList members := by
  simp only [entries, h]

section
variable {t : Target} {opening : String} {strict : Bool}

theorem isDeclaration_iff {entry : String × Json} {s : Schema} {text : String}
    (hs : Decoder.onValue Schema.decode entry.2 = .ok s)
    (hfault : firstFault strict s.shape.nodes = none) :
    IsDeclaration opening ⟨t, strict⟩ entry text ↔
      text = opening ++ Name.typeName entry.1 ++ "=" ++ t.written s.shape := by
  have hwritten : (TypeWriter.mk t strict).shape s.shape = .ok (t.written s.shape) := by
    rw [TypeWriter.shape_eq, unlessFault_eq_ok_iff]
    exact ⟨hfault, rfl⟩
  constructor
  · rintro ⟨s', type, hs', htype, rfl⟩
    rw [hs] at hs'
    obtain rfl := Except.ok.inj hs'
    rw [hwritten] at htype
    rw [Except.ok.inj htype]
  · rintro rfl
    exact ⟨s, _, hs, hwritten, rfl⟩

/-- Texts are the declarations of named schemas only where they are the ones that
are written. -/
theorem forall₂_isDeclaration_iff {members : List (String × Json)}
    {named : List (String × Schema)} {texts : List String}
    (hopening : ∀ name type, t.declaration name type = opening ++ name ++ "=" ++ type)
    (hdecode : DecodesTo Schema.decode members named)
    (hfault : firstFault strict (nodes (named.map fun entry => (entry.1, entry.2.shape))) = none) :
    List.Forall₂ (IsDeclaration opening ⟨t, strict⟩) members texts ↔
      texts = writtenDeclarations t (named.map fun entry => (entry.1, entry.2.shape)) := by
  induction hdecode generalizing texts with
  | nil => exact List.forall₂_nil_left_iff
  | @cons member entry members named hhead htail ih =>
    obtain ⟨_, value⟩ := member
    obtain ⟨name, s⟩ := entry
    obtain ⟨rfl, hs⟩ := hhead
    have hnodes : nodes (((name, s) :: named).map fun entry => (entry.1, entry.2.shape)) =
        s.shape.nodes ++ nodes (named.map fun entry => (entry.1, entry.2.shape)) :=
      List.flatMap_cons
    rw [hnodes, firstFault_append, Option.or_eq_none_iff] at hfault
    simp only [List.forall₂_cons_left_iff, isDeclaration_iff hs hfault.1, ih hfault.2,
      exists_and_left, exists_eq_left, List.map_cons, writtenDeclarations, hopening]

theorem oneLine_writtenDeclarations {Fit : List String → Prop} (ht : t.KeepsLines Fit)
    (hopening : ∀ name type, t.declaration name type = opening ++ name ++ "=" ++ type)
    (hline : OneLine opening) (definitions : Definitions) :
    (∀ text ∈ writtenDeclarations t definitions, OneLine text) ↔
      FitsAll Fit (nodes definitions) := by
  have hdeclaration : ∀ name s,
      OneLine (t.declaration (Name.typeName name) (t.written s)) ↔ FitsAll Fit s.nodes := by
    intro name s
    have hname : OneLine (opening ++ Name.typeName name ++ "=") := by
      rw [oneLine_append, oneLine_append]
      exact ⟨⟨hline, oneLine_identifier (Name.isIdentifier_typeName name)⟩, by decide⟩
    rw [hopening, oneLine_append, Target.oneLine_written ht]
    exact and_iff_right hname
  induction definitions with
  | nil => exact iff_of_true (fun _ h => nomatch h) Target.fitsAll_nil
  | cons entry rest ih =>
    have hnodes : nodes (entry :: rest) = entry.2.nodes ++ nodes rest := List.flatMap_cons
    rw [hnodes, Target.fitsAll_append, writtenDeclarations, List.map_cons, List.forall_mem_cons]
    exact and_congr (hdeclaration entry.1 entry.2) ih

end

/-- A module of one target: its header and one declaration for each named schema. -/
def IsModule (opening : String) (w : TypeWriter) (document : Json) (text : String) : Prop :=
  ∃ texts, List.Forall₂ (IsDeclaration opening w) (entries document) texts ∧
    text = w.target.header ++ w.target.combine texts

/-- A module of the output type: of its target, or of both targets in turn for codecs. -/
def IsGenerated (options : Options) (document : Json) (text : String) : Prop :=
  match options.outputType with
  | .typeScript => IsModule "export type " ⟨.typeScript, options.exitOnInvalidType⟩ document text
  | .flow => IsModule "export type " ⟨.flow, options.exitOnInvalidType⟩ document text
  | .codec => ∃ types codecs, text = types ++ ";\n" ++ codecs ∧
    IsModule "export type " ⟨.typeScript, options.exitOnInvalidType⟩ document types ∧
    IsModule "export const " ⟨.codec, options.exitOnInvalidType⟩ document codecs

theorem isGenerated_of_generate {options : Options} {document : Json} {text : String}
    (h : generate options document = .ok text) : IsGenerated options document text := by
  obtain ⟨outputType, strict⟩ := options
  obtain ⟨-, members, named, hschemas, hdecode, hfault, rfl⟩ := (generate_eq_ok_iff _ _ _).mp h
  have hmodule : ∀ (t : Target) (opening : String),
      (∀ name type, t.declaration name type = opening ++ name ++ "=" ++ type) →
      IsModule opening ⟨t, strict⟩ document (targetText t (lowered named)) := by
    intro t opening hopening
    refine ⟨_, ?_, rfl⟩
    rw [entries_eq hschemas]
    exact (forall₂_isDeclaration_iff hopening hdecode.ofList hfault).mpr rfl
  cases outputType with
  | typeScript => exact hmodule .typeScript _ fun _ _ => rfl
  | flow => exact hmodule .flow _ fun _ _ => rfl
  | codec =>
    exact ⟨_, _, rfl, hmodule .typeScript _ fun _ _ => rfl, hmodule .codec _ fun _ _ => rfl⟩

/-- No value of an enumeration holds a line break. -/
def EnumsKeepLines (definitions : Definitions) : Prop :=
  ∀ values, Kind.enum values ∈ nodes definitions → ∀ value ∈ values, OneLine value

section
variable {members : List (String × Json)} {named : List (String × Schema)} {strict : Bool}

theorem writtenDeclarations_ne_nil (t : Target) (hdecode : DecodesTo Schema.decode members named)
    (hne : Members.ofList members ≠ []) : writtenDeclarations t (lowered named) ≠ [] := by
  have hlength := hdecode.ofList.length_eq
  intro hnil
  rw [writtenDeclarations, lowered, List.map_map, List.map_eq_nil_iff] at hnil
  rw [hnil] at hlength
  exact hne (List.length_eq_zero_iff.mp hlength)

theorem static_pieces_iff {t : Target}
    (ht : t.KeepsLines fun values => ∀ value ∈ values, OneLine value)
    (hopening : ∀ name type, t.declaration name type = "export type " ++ name ++ "=" ++ type)
    (hcombine : t.combine = Text.joinWith "\n") (hdecode : DecodesTo Schema.decode members named)
    (hfault : firstFault strict (nodes (lowered named)) = none)
    (hne : Members.ofList members ≠ []) :
    List.Forall₂ (IsDeclaration "export type " ⟨t, strict⟩) (Members.ofList members)
        (Text.pieces "\n" (t.combine (writtenDeclarations t (lowered named)))) ↔
      EnumsKeepLines (lowered named) := by
  rw [forall₂_isDeclaration_iff hopening hdecode.ofList hfault, hcombine]
  exact (Text.pieces_lines_iff (writtenDeclarations_ne_nil t hdecode hne)).trans
    (oneLine_writtenDeclarations ht hopening (by decide) (lowered named))

theorem codec_pieces (hdecode : DecodesTo Schema.decode members named)
    (hfault : firstFault strict (nodes (lowered named)) = none)
    (hne : Members.ofList members ≠ []) :
    List.Forall₂ (IsDeclaration "export const " ⟨.codec, strict⟩) (Members.ofList members)
      (Text.pieces ";\n" (Target.codec.combine (writtenDeclarations .codec (lowered named)))) := by
  have hlines := (oneLine_writtenDeclarations Target.keepsLines_codec (fun _ _ => rfl)
    (by decide) (lowered named)).mpr fun _ _ => trivial
  rw [forall₂_isDeclaration_iff (fun _ _ => rfl) hdecode.ofList hfault]
  exact Text.pieces_statements (writtenDeclarations_ne_nil .codec hdecode hne) hlines

end

/-- What stands in a module: behind its header, one declaration for each named
schema in order, with nothing between them but the separator.  For static types
this is so if and only if no value of an enumeration holds a line break; the
codecs are always told apart. -/
theorem generate_pieces {options : Options} {document : Json} {text : String}
    (h : generate options document = .ok text) (hne : entries document ≠ []) :
    ∃ defs, definitions document = .ok defs ∧
      match options.outputType with
      | .typeScript =>
        List.Forall₂ (IsDeclaration "export type " ⟨.typeScript, options.exitOnInvalidType⟩)
          (entries document) (Text.pieces "\n" text) ↔ EnumsKeepLines defs
      | .flow => ∃ body, text = "// @flow\n" ++ body ∧
        (List.Forall₂ (IsDeclaration "export type " ⟨.flow, options.exitOnInvalidType⟩)
          (entries document) (Text.pieces "\n" body) ↔ EnumsKeepLines defs)
      | .codec => ∃ types body,
        text = types ++ ";\n" ++ ("import * as t from 'io-ts'\n" ++ body) ∧
        generate ⟨.typeScript, options.exitOnInvalidType⟩ document = .ok types ∧
        List.Forall₂ (IsDeclaration "export const " ⟨.codec, options.exitOnInvalidType⟩)
          (entries document) (Text.pieces ";\n" body) := by
  obtain ⟨outputType, strict⟩ := options
  obtain ⟨hs, members, named, hschemas, hdecode, hfault, rfl⟩ :=
    (generate_eq_ok_iff _ _ _).mp h
  rw [entries_eq hschemas] at hne ⊢
  refine ⟨lowered named, definitions_of_declares hschemas ⟨members, rfl, hdecode⟩, ?_⟩
  cases outputType with
  | typeScript =>
    have htext : moduleText (lowered named) .typeScript =
        Target.typeScript.combine (writtenDeclarations .typeScript (lowered named)) :=
      String.empty_append
    simp only [htext]
    exact static_pieces_iff Target.keepsLines_typeScript (fun _ _ => rfl) rfl hdecode hfault hne
  | flow =>
    refine ⟨_, rfl, ?_⟩
    exact static_pieces_iff Target.keepsLines_flow (fun _ _ => rfl) rfl hdecode hfault hne
  | codec =>
    refine ⟨_, _, rfl, ?_, codec_pieces hdecode hfault hne⟩
    exact (generate_eq_ok_iff _ _ _).mpr ⟨hs, members, named, hschemas, hdecode, hfault, rfl⟩

/-- A document of version 3.0.0 with these named schemas. -/
def ofSchemas (schemas : List (String × Json)) : Json :=
  .object [("openapi", .string "3.0.0"),
    ("components", .object [("schemas", .object schemas)])]

theorem pieces_with_quotes_and_breaks :
    let document := ofSchemas [
      ("Pet.Kind", .object [("type", .string "string"), ("enum", .array [.string "it's"])]),
      ("Line", .object [("properties", .object [("a\nb", .object [("type", .string "number")])])])]
    let text := "export type Pet_Kind='it\\'s'\nexport type Line=\x7b\"a\\nb\"?:number\x7d"
    generate {} document = .ok text ∧ entries document ≠ [] ∧
      List.Forall₂ (IsDeclaration "export type " ⟨.typeScript, false⟩) (entries document)
        (Text.pieces "\n" text) := by
  intro document text
  have hgenerate : generate {} document = .ok text := rfl
  have hentries : entries document ≠ [] := by decide
  obtain ⟨defs, hdefs, hpieces⟩ := generate_pieces hgenerate hentries
  refine ⟨hgenerate, hentries, hpieces.mpr ?_⟩
  have hdefinitions : definitions document = .ok [
      ("Pet.Kind", .mk (.enum ["it's"]) false),
      ("Line", .mk (.object [.mk "a\nb" false (.mk .number false)]) false)] := rfl
  rw [hdefinitions] at hdefs
  obtain rfl := Except.ok.inj hdefs
  intro values hvalues
  obtain rfl : values = ["it's"] := by
    simpa [nodes, Shape.nodes, Kind.inner, Field.listNodes] using hvalues
  decide

/-- A line break in a value of an enumeration breaks the declaration in two. -/
theorem line_break_in_literal :
    let document := ofSchemas [
      ("E", .object [("type", .string "string"), ("enum", .array [.string "a\nb"])])]
    let text := "export type E='a\nb'"
    generate {} document = .ok text ∧ (entries document).length = 1 ∧
      Text.pieces "\n" text = ["export type E='a", "b'"] ∧
      ¬ List.Forall₂ (IsDeclaration "export type " ⟨.typeScript, false⟩) (entries document)
        (Text.pieces "\n" text) := by
  intro document text
  have htext : text = Text.joinWith "\n" ["export type E='a", "b'"] := rfl
  have hpieces : Text.pieces "\n" text = ["export type E='a", "b'"] := by
    rw [htext]
    exact (Text.pieces_lines_iff (by simp)).mpr (by decide)
  refine ⟨rfl, rfl, hpieces, ?_⟩
  intro h
  have hlength := h.length_eq
  rw [hpieces] at hlength
  exact absurd hlength (by decide)

end Document

end ApiTypes
