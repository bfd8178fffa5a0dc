import ApiTypes.Proofs.NormalizedDocuments
import ApiTypes.Proofs.PatchedDeclarations
import Mathlib.Data.List.Perm.Basic

/-!
# Documents put together

The schemas of a document are declared one by one, and nothing that one declaration is
made of comes from another schema.  So the declarations of two parts of a document are
those of the whole, its first failure is the first failure of the parts, and schemas in
another order have the same declarations in that order.
-/

namespace ApiTypes

theorem Text.joinWith_append (separator : String) {texts others : List String} (h : texts ≠ [])
    (hothers : others ≠ []) : joinWith separator (texts ++ others) =
      joinWith separator texts ++ separator ++ joinWith separator others := by
  obtain ⟨other, others, rfl⟩ := List.exists_cons_of_ne_nil hothers
  induction texts with
  | nil => exact absurd rfl h
  | cons text texts ih =>
    cases texts with
    | nil => rfl
    | cons next texts =>
      rw [List.cons_append, List.cons_append, joinWith, ← List.cons_append,
        ih (List.cons_ne_nil _ _), joinWith]
      simp only [String.append_assoc]

namespace Document

/-! ### What is generated, by the definitions -/

section
variable {options : Options} {document : Json} {defs : Definitions}

theorem generate_of_definitions (options : Options) (h : definitions document = .ok defs) :
    generate options document = (do
      checkVersion document
      unlessFault (firstFault options.exitOnInvalidType (nodes defs))
        (moduleText defs options.outputType)) := by
  rw [generate_eq, h]
  rfl

theorem generate_ok_iff {text : String} : generate options document = .ok text ↔
    checkVersion document = .ok () ∧ ∃ defs, definitions document = .ok defs ∧
      firstFault options.exitOnInvalidType (nodes defs) = none ∧
      moduleText defs options.outputType = text := by
  simp only [generate_eq, bind_eq_ok_iff, unlessFault_eq_ok_iff]
  exact Unique.exists_iff

theorem declarationsOf_append (t : Target) (defs others : Definitions) :
    declarationsOf t (defs ++ others) = declarationsOf t defs ++ declarationsOf t others := by
  rw [declarationsOf, writtenDeclarations, List.map_append, List.map_append, List.zip_append]
  · rfl
  · simp

theorem firstFault_nodes_append (strict : Bool) (defs others : Definitions) :
    firstFault strict (nodes (defs ++ others)) =
      (firstFault strict (nodes defs)).or (firstFault strict (nodes others)) := by
  rw [nodes, List.flatMap_append, firstFault_append]
  rfl

theorem declarationsOf_perm (t : Target) {others : Definitions} (h : others.Perm defs) :
    (declarationsOf t others).Perm (declarationsOf t defs) := by
  simp only [declarationsOf, writtenDeclarations, List.zip_map']
  exact h.map _

theorem firstFault_eq_none_of_perm {strict : Bool} {others : Definitions}
    (h : others.Perm defs) (hfault : firstFault strict (nodes defs) = none) :
    firstFault strict (nodes others) = none := by
  rw [firstFault, List.findSome?_eq_none_iff] at hfault ⊢
  intro k hk
  exact hfault k ((h.flatMap_right _).mem_iff.mp hk)

end

/-! ### Documents with other schemas -/

/-- The document with these named schemas in place of its own. -/
def withSchemas (schemas : List (String × Json)) (document : Json) : Json :=
  document.mapMember "components" (Json.mapMember "schemas" fun _ => .object schemas)

section
variable {document : Json} {members : List (String × Json)}

theorem schemas?_withSchemas {schemas : Json} (h : schemas? document = some schemas)
    (members : List (String × Json)) :
    schemas? (withSchemas members document) = some (.object members) := by
  obtain ⟨components, hcomponents, hschemas⟩ := Option.bind_eq_some_iff.mp h
  rw [schemas?, withSchemas, Json.member?_mapMember_same, hcomponents, Option.map_some,
    Option.bind_some, Json.member?_mapMember_same, hschemas, Option.map_some]

theorem checkVersion_withSchemas (members : List (String × Json)) (document : Json) :
    checkVersion (withSchemas members document) = checkVersion document :=
  checkVersion_congr (Json.member?_mapMember_of_ne (by decide) _ document)

theorem definitions_eq_ok_iff (h : schemas? document = some (.object members))
    (hkeys : (members.map Prod.fst).Nodup) {defs : Definitions} :
    definitions document = .ok defs ↔ ∃ named, DecodesTo Schema.decode members named ∧
      named.map (fun entry => (entry.1, entry.2.shape)) = defs := by
  have hlowered : ∀ {named}, DecodesTo Schema.decode members named →
      lowered named = named.map fun entry => (entry.1, entry.2.shape) := by
    intro named hnamed
    apply lowered_of_nodup
    rwa [Schema.keys_of_decodesTo hnamed]
  constructor
  · intro hdefs
    by_cases hm : ∃ named, Declares (.object members) named
    · obtain ⟨named, hdeclares⟩ := hm
      obtain ⟨members', hobject, hnamed⟩ := hdeclares
      obtain rfl := Json.object.inj hobject
      rw [definitions_of_declares h ⟨members, rfl, hnamed⟩, hlowered hnamed] at hdefs
      exact ⟨named, hnamed, Except.ok.inj hdefs⟩
    · obtain ⟨message, hmessage⟩ := definitions_of_malformed h hm
      rw [hmessage] at hdefs
      cases hdefs
  · rintro ⟨named, hnamed, rfl⟩
    rw [definitions_of_declares h ⟨members, rfl, hnamed⟩, hlowered hnamed]

theorem names_of_definitions (h : schemas? document = some (.object members))
    (hkeys : (members.map Prod.fst).Nodup) {defs : Definitions}
    (hdefs : definitions document = .ok defs) : defs.map Prod.fst = members.map Prod.fst := by
  obtain ⟨named, hnamed, rfl⟩ := (definitions_eq_ok_iff h hkeys).mp hdefs
  rw [List.map_map, ← Schema.keys_of_decodesTo hnamed]
  rfl

theorem ne_nil_of_definitions (h : schemas? document = some (.object members))
    (hkeys : (members.map Prod.fst).Nodup) (hmembers : members ≠ []) {defs : Definitions}
    (hdefs : definitions document = .ok defs) : defs ≠ [] := by
  rintro rfl
  exact hmembers (List.map_eq_nil_iff.mp (names_of_definitions h hkeys hdefs).symm)

end

/-! ### Two parts of a document -/

section
variable {options : Options} {document : Json} {first second : List (String × Json)}

theorem nodup_parts (hkeys : ((first ++ second).map Prod.fst).Nodup) :
    (first.map Prod.fst).Nodup ∧ (second.map Prod.fst).Nodup := by
  rw [List.map_append] at hkeys
  exact ⟨hkeys.of_append_left, hkeys.of_append_right⟩

theorem definitions_append_iff (h : schemas? document = some (.object (first ++ second)))
    (hkeys : ((first ++ second).map Prod.fst).Nodup) {defs : Definitions} :
    definitions document = .ok defs ↔ ∃ defs₁ defs₂,
      definitions (withSchemas first document) = .ok defs₁ ∧
      definitions (withSchemas second document) = .ok defs₂ ∧ defs₁ ++ defs₂ = defs := by
  obtain ⟨hkeys₁, hkeys₂⟩ := nodup_parts hkeys
  simp only [definitions_eq_ok_iff h hkeys,
    definitions_eq_ok_iff (schemas?_withSchemas h first) hkeys₁,
    definitions_eq_ok_iff (schemas?_withSchemas h second) hkeys₂]
  constructor
  · rintro ⟨named, hnamed, rfl⟩
    -- schemas are decoded one by one, so they part where the members do
    have hfront := List.forall₂_take first.length hnamed
    have hback := List.forall₂_drop first.length hnamed
    rw [List.take_left] at hfront
    rw [List.drop_left] at hback
    refine ⟨_, _, ⟨_, hfront, rfl⟩, ⟨_, hback, rfl⟩, ?_⟩
    rw [← List.map_append, List.take_append_drop]
  · rintro ⟨_, _, ⟨named₁, hnamed₁, rfl⟩, ⟨named₂, hnamed₂, rfl⟩, rfl⟩
    exact ⟨named₁ ++ named₂, List.rel_append hnamed₁ hnamed₂, List.map_append⟩

theorem declared_append_iff (h : schemas? document = some (.object (first ++ second)))
    (hkeys : ((first ++ second).map Prod.fst).Nodup) {w : TypeWriter}
    {ds : List (String × String)} :
    declared w document = .ok ds ↔ ∃ ds₁ ds₂,
      declared w (withSchemas first document) = .ok ds₁ ∧
      declared w (withSchemas second document) = .ok ds₂ ∧ ds₁ ++ ds₂ = ds := by
  simp only [declared_eq_ok_iff, definitions_append_iff h hkeys]
  constructor
  · rintro ⟨_, ⟨defs₁, defs₂, h₁, h₂, rfl⟩, hfault, rfl⟩
    rw [firstFault_nodes_append, Option.or_eq_none_iff] at hfault
    exact ⟨_, _, ⟨defs₁, h₁, hfault.1, rfl⟩, ⟨defs₂, h₂, hfault.2, rfl⟩,
      (declarationsOf_append _ _ _).symm⟩
  · rintro ⟨_, _, ⟨defs₁, h₁, hfault₁, rfl⟩, ⟨defs₂, h₂, hfault₂, rfl⟩, rfl⟩
    refine ⟨_, ⟨defs₁, defs₂, h₁, h₂, rfl⟩, ?_, declarationsOf_append _ _ _⟩
    rw [firstFault_nodes_append, hfault₁, hfault₂]
    rfl

/-- Where the whole is decoded, its first failure is that of the first part, or that of
the second where the first is generated. -/
theorem generate_append_error_iff (h : schemas? document = some (.object (first ++ second)))
    (hkeys : ((first ++ second).map Prod.fst).Nodup) {defs : Definitions}
    (hdefs : definitions document = .ok defs) {e : GenerationError} :
    generate options document = .error e ↔
      generate options (withSchemas first document) = .error e ∨
      (∃ text, generate options (withSchemas first document) = .ok text) ∧
        generate options (withSchemas second document) = .error e := by
  obtain ⟨defs₁, defs₂, h₁, h₂, rfl⟩ := (definitions_append_iff h hkeys).mp hdefs
  rw [generate_of_definitions options hdefs, generate_of_definitions options h₁,
    generate_of_definitions options h₂, checkVersion_withSchemas, checkVersion_withSchemas,
    firstFault_nodes_append]
  cases checkVersion document with
  -- the version is that of both parts, and the first of them is refused already
  | error failure => exact (or_iff_left fun hparts => nomatch hparts.1).symm
  | ok =>
    show unlessFault _ _ = _ ↔ unlessFault _ _ = _ ∨
      (∃ text, unlessFault _ _ = _) ∧ unlessFault _ _ = _
    simp only [unlessFault_eq_error_iff, unlessFault_eq_ok_iff, Option.or_eq_some_iff,
      exists_and_left, exists_eq', and_true]

end

/-! ### Modules by their declarations -/

/-- Generation gives the text that these declarations make up, and these are the
declarations of the document. -/
structure GeneratesBy (options : Options) (document : Json)
    (lists : Target → List (String × String)) : Prop where
  text : generate options document = .ok (assembled options.outputType lists)
  declared : ∀ t ∈ options.outputType.targets,
    declared ⟨t, options.exitOnInvalidType⟩ document = .ok (lists t)

section
variable {options : Options} {document : Json} {first second : List (String × Json)}

theorem generatesBy_declarationsOf {defs : Definitions} (hversion : checkVersion document = .ok ())
    (hdefs : definitions document = .ok defs)
    (hfault : firstFault options.exitOnInvalidType (nodes defs) = none) :
    GeneratesBy options document fun t => declarationsOf t defs where
  text := generate_ok_iff.mpr
    ⟨hversion, defs, hdefs, hfault, (assembled_declarationsOf _ defs).symm⟩
  declared _ _ := declared_eq_ok_iff.mpr ⟨defs, hdefs, hfault, rfl⟩

theorem generates_iff : (∃ text, generate options document = .ok text) ↔
    checkVersion document = .ok () ∧ ∃ defs, definitions document = .ok defs ∧
      firstFault options.exitOnInvalidType (nodes defs) = none := by
  simp only [generate_ok_iff]
  constructor
  · rintro ⟨_, hversion, defs, hdefs, hfault, -⟩
    exact ⟨hversion, defs, hdefs, hfault⟩
  · rintro ⟨hversion, defs, hdefs, hfault⟩
    exact ⟨_, hversion, defs, hdefs, hfault, rfl⟩

theorem generates_append_iff (h : schemas? document = some (.object (first ++ second)))
    (hkeys : ((first ++ second).map Prod.fst).Nodup) :
    (∃ text, generate options document = .ok text) ↔
      (∃ text, generate options (withSchemas first document) = .ok text) ∧
        ∃ text, generate options (withSchemas second document) = .ok text := by
  simp only [generates_iff, checkVersion_withSchemas, definitions_append_iff h hkeys]
  constructor
  · rintro ⟨hversion, _, ⟨defs₁, defs₂, h₁, h₂, rfl⟩, hfault⟩
    rw [firstFault_nodes_append, Option.or_eq_none_iff] at hfault
    exact ⟨⟨hversion, defs₁, h₁, hfault.1⟩, hversion, defs₂, h₂, hfault.2⟩
  · rintro ⟨⟨hversion, defs₁, h₁, hfault₁⟩, -, defs₂, h₂, hfault₂⟩
    refine ⟨hversion, _, ⟨defs₁, defs₂, h₁, h₂, rfl⟩, ?_⟩
    rw [firstFault_nodes_append, hfault₁, hfault₂]
    rfl

theorem generatesBy_append (h : schemas? document = some (.object (first ++ second)))
    (hkeys : ((first ++ second).map Prod.fst).Nodup) {text : String}
    (htext : generate options document = .ok text) :
    ∃ lists₁ lists₂, GeneratesBy options (withSchemas first document) lists₁ ∧
      GeneratesBy options (withSchemas second document) lists₂ ∧
      GeneratesBy options document fun t => lists₁ t ++ lists₂ t := by
  obtain ⟨hversion, _, hdefs, hfault⟩ := generates_iff.mp ⟨text, htext⟩
  obtain ⟨defs₁, defs₂, h₁, h₂, rfl⟩ := (definitions_append_iff h hkeys).mp hdefs
  have hwhole := generatesBy_declarationsOf hversion hdefs hfault
  rw [firstFault_nodes_append, Option.or_eq_none_iff] at hfault
  refine ⟨fun t => declarationsOf t defs₁, fun t => declarationsOf t defs₂, ?_, ?_, ?_⟩
  · exact generatesBy_declarationsOf ((checkVersion_withSchemas _ _).trans hversion) h₁ hfault.1
  · exact generatesBy_declarationsOf ((checkVersion_withSchemas _ _).trans hversion) h₂ hfault.2
  · simpa only [declarationsOf_append] using hwhole

end

/-! ### The text of two TypeScript modules -/

theorem targetText_typeScript_append {defs others : Definitions} (h : defs ≠ [])
    (hothers : others ≠ []) : targetText .typeScript (defs ++ others) =
      targetText .typeScript defs ++ "\n" ++ targetText .typeScript others := by
  have hwritten : ∀ {list : Definitions}, list ≠ [] → writtenDeclarations .typeScript list ≠ [] :=
    fun hne hnil => hne (List.map_eq_nil_iff.mp hnil)
  have htext : ∀ list, targetText .typeScript list =
      Text.joinWith "\n" (writtenDeclarations .typeScript list) := fun _ => String.empty_append
  rw [htext, htext, htext, writtenDeclarations, List.map_append]
  exact Text.joinWith_append "\n" (hwritten h) (hwritten hothers)

theorem generate_typeScript_append {strict : Bool} {document : Json}
    {first second : List (String × Json)}
    (h : schemas? document = some (.object (first ++ second)))
    (hkeys : ((first ++ second).map Prod.fst).Nodup) (hfirst : first ≠ []) (hsecond : second ≠ [])
    {a b : String} (ha : generate ⟨.typeScript, strict⟩ (withSchemas first document) = .ok a)
    (hb : generate ⟨.typeScript, strict⟩ (withSchemas second document) = .ok b) :
    generate ⟨.typeScript, strict⟩ document = .ok (a ++ "\n" ++ b) := by
  obtain ⟨hversion, defs₁, h₁, hfault₁, rfl⟩ := generate_ok_iff.mp ha
  obtain ⟨-, defs₂, h₂, hfault₂, rfl⟩ := generate_ok_iff.mp hb
  obtain ⟨hkeys₁, hkeys₂⟩ := nodup_parts hkeys
  have hne₁ := ne_nil_of_definitions (schemas?_withSchemas h first) hkeys₁ hfirst h₁
  have hne₂ := ne_nil_of_definitions (schemas?_withSchemas h second) hkeys₂ hsecond h₂
  refine generate_ok_iff.mpr ⟨?_, defs₁ ++ defs₂, ?_, ?_, ?_⟩
  · rwa [checkVersion_withSchemas] at hversion
  · exact (definitions_append_iff h hkeys).mpr ⟨defs₁, defs₂, h₁, h₂, rfl⟩
  · rw [firstFault_nodes_append, hfault₁, hfault₂]
    rfl
  · exact targetText_typeScript_append hne₁ hne₂

/-! ### Schemas in another order -/

section
variable {options : Options} {document : Json} {members reordered : List (String × Json)}

theorem definitions_reordered (h : schemas? document = some (.object members))
    (hkeys : (members.map Prod.fst).Nodup) (hperm : reordered.Perm members) {defs : Definitions}
    (hdefs : definitions document = .ok defs) :
    ∃ others, definitions (withSchemas reordered document) = .ok others ∧ others.Perm defs := by
  obtain ⟨named, hnamed, rfl⟩ := (definitions_eq_ok_iff h hkeys).mp hdefs
  obtain ⟨renamed, hrenamed, hmoved⟩ := List.perm_comp_forall₂ hperm hnamed
  have hkeys' : (reordered.map Prod.fst).Nodup := (hperm.map _).nodup_iff.mpr hkeys
  refine ⟨_, (definitions_eq_ok_iff (schemas?_withSchemas h _) hkeys').mpr ⟨_, hrenamed, rfl⟩, ?_⟩
  exact hmoved.map _

theorem generatesBy_reordered (h : schemas? document = some (.object members))
    (hkeys : (members.map Prod.fst).Nodup) (hperm : reordered.Perm members) {text : String}
    (htext : generate options document = .ok text) :
    ∃ before after, GeneratesBy options document before ∧
      GeneratesBy options (withSchemas reordered document) after ∧
      ∀ t, (after t).Perm (before t) ∧ (before t).map Prod.fst = members.map Prod.fst ∧
        (after t).map Prod.fst = reordered.map Prod.fst := by
  obtain ⟨hversion, defs, hdefs, hfault⟩ := generates_iff.mp ⟨text, htext⟩
  obtain ⟨others, hothers, hmoved⟩ := definitions_reordered h hkeys hperm hdefs
  have hkeys' : (reordered.map Prod.fst).Nodup := (hperm.map _).nodup_iff.mpr hkeys
  refine ⟨_, _, generatesBy_declarationsOf hversion hdefs hfault,
    generatesBy_declarationsOf ((checkVersion_withSchemas _ _).trans hversion) hothers
      (firstFault_eq_none_of_perm hmoved hfault), fun t => ⟨declarationsOf_perm t hmoved, ?_, ?_⟩⟩
  · rw [map_fst_declarationsOf, names_of_definitions h hkeys hdefs]
  · rw [map_fst_declarationsOf, names_of_definitions (schemas?_withSchemas h _) hkeys' hothers]

end

/-- What a document with the schemas of two documents, those of the one before those of the
other, has of each. -/
structure Composes (options : Options) (document : Json) (first second : List (String × Json)) :
    Prop where
  declarations : ∀ t ∈ options.outputType.targets, ∀ ds,
    declared ⟨t, options.exitOnInvalidType⟩ document = .ok ds ↔ ∃ ds₁ ds₂,
      declared ⟨t, options.exitOnInvalidType⟩ (withSchemas first document) = .ok ds₁ ∧
      declared ⟨t, options.exitOnInvalidType⟩ (withSchemas second document) = .ok ds₂ ∧
      ds₁ ++ ds₂ = ds
  success : (∃ text, generate options document = .ok text) ↔
    (∃ text, generate options (withSchemas first document) = .ok text) ∧
      ∃ text, generate options (withSchemas second document) = .ok text
  /-- Every text of the whole is made up of the declarations of the parts, in each half of
  a codec module. -/
  modules : ∀ text, generate options document = .ok text → ∃ lists₁ lists₂,
    GeneratesBy options (withSchemas first document) lists₁ ∧
    GeneratesBy options (withSchemas second document) lists₂ ∧
    GeneratesBy options document fun t => lists₁ t ++ lists₂ t
  failure : ∀ defs, definitions document = .ok defs → ∀ e,
    generate options document = .error e ↔
      generate options (withSchemas first document) = .error e ∨
      (∃ text, generate options (withSchemas first document) = .ok text) ∧
        generate options (withSchemas second document) = .error e
  typeScript : options.outputType = .typeScript → first ≠ [] → second ≠ [] → ∀ a b,
    generate options (withSchemas first document) = .ok a →
    generate options (withSchemas second document) = .ok b →
    generate options document = .ok (a ++ "\n" ++ b)

/-- The declarations of schemas are independent of each other: those of two parts of a
document are put together, and schemas in another order are declared in that order. -/
theorem declarations_compose (options : Options) {document : Json}
    {members : List (String × Json)} (hdocument : document.Distinct)
    (hschemas : schemas? document = some (.object members)) :
    (∀ first second, first ++ second = members → Composes options document first second) ∧
    ∀ reordered, reordered.Perm members → ∀ text, generate options document = .ok text →
      ∃ before after, GeneratesBy options document before ∧
        GeneratesBy options (withSchemas reordered document) after ∧
        ∀ t, (after t).Perm (before t) ∧ (before t).map Prod.fst = members.map Prod.fst ∧
          (after t).map Prod.fst = reordered.map Prod.fst := by
  have hkeys : (members.map Prod.fst).Nodup := (distinct_of_schemas? hdocument hschemas).1
  constructor
  · rintro first second rfl
    exact {
      declarations := fun t _ ds => declared_append_iff hschemas hkeys
      success := generates_append_iff hschemas hkeys
      modules := fun text => generatesBy_append hschemas hkeys
      failure := fun defs hdefs e => generate_append_error_iff hschemas hkeys hdefs
      typeScript := by
        intro htypeScript hfirst hsecond a b ha hb
        obtain ⟨outputType, strict⟩ := options
        obtain rfl : outputType = .typeScript := htypeScript
        exact generate_typeScript_append hschemas hkeys hfirst hsecond ha hb }
  · intro reordered hperm text htext
    exact generatesBy_reordered hschemas hkeys hperm htext

theorem declarations_compose_in_codecs :
    threeSchemas.Distinct ∧ ∃ a rest text, schemas? threeSchemas = some (.object (a :: rest)) ∧
      generate ⟨.codec, false⟩ threeSchemas = .ok text ∧
      Composes ⟨.codec, false⟩ threeSchemas [a] rest ∧
      ∃ after, GeneratesBy ⟨.codec, false⟩ (withSchemas (rest ++ [a]) threeSchemas) after ∧
        ∀ t, (after t).map Prod.fst = ["B", "C", "A"] := by
  have hdocument : threeSchemas.Distinct := by decide +kernel
  obtain ⟨text, htext⟩ : ∃ text, generate ⟨.codec, false⟩ threeSchemas = .ok text := ⟨_, rfl⟩
  obtain ⟨hparts, hreorder⟩ := declarations_compose ⟨.codec, false⟩ hdocument rfl
  obtain ⟨before, after, -, hafter, hlists⟩ :=
    hreorder _ (List.perm_append_singleton _ _) text htext
  exact ⟨hdocument, _, _, text, rfl, htext, hparts _ _ rfl, after, hafter,
    fun t => (hlists t).2.2⟩

end Document

end ApiTypes
