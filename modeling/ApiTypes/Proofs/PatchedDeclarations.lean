import ApiTypes.Proofs.Annotations
import ApiTypes.Proofs.Declarations
import ApiTypes.Proofs.PatchedMembers
import ApiTypes.Proofs.SchemaRoundTrip

/-!
# Declarations under a patch

A patch of the named schemas changes the declarations that it names and no others.  The
declarations of a module are seen beside the names of their schemas: those that the patch
does not name are the same before and after it, character for character, and the names
move as the keys of an object do under a patch.
-/

namespace ApiTypes

/-! ### Parts of what is decoded -/

section
variable {α : Type} {decoder : Decoder α} {members : List (String × Json)}
  {entries other : List (String × α)}

theorem DecodesTo.filter_keys (h : DecodesTo decoder members entries) (p : String → Bool) :
    DecodesTo decoder (members.filter fun m => p m.1) (entries.filter fun e => p e.1) := by
  induction h with
  | nil => exact .nil
  | @cons member entry members entries hhead _ ih =>
    have hp : p entry.1 = p member.1 := congrArg p hhead.1
    rw [List.filter_cons, List.filter_cons, hp]
    cases p member.1 with
    | true => exact .cons hhead ih
    | false => exact ih

theorem DecodesTo.unique (h : DecodesTo decoder members entries)
    (hother : DecodesTo decoder members other) : entries = other := by
  induction h generalizing other with
  | nil => exact (List.forall₂_nil_left_iff.mp hother).symm
  | cons hhead _ ih =>
    cases hother with
    | cons hhead' htail' =>
      have hvalue := Except.ok.inj (hhead.2.symm.trans hhead'.2)
      rw [ih htail', Prod.ext (hhead.1.trans hhead'.1.symm) hvalue]

end

/-- The targets whose modules make up a generated text. -/
def OutputType.targets : OutputType → List Target
  | typeScript => [.typeScript]
  | flow => [.flow]
  | codec => [.typeScript, .codec]

namespace Document

/-! ### Declarations beside their names -/

/-- The declarations of a document in one target, each beside the name of its schema. -/
def declared (w : TypeWriter) (document : Json) :
    Except GenerationError (List (String × String)) := do
  let defs ← definitions document
  let texts ← declarations w defs
  pure ((defs.map Prod.fst).zip texts)

/-- The text that the declarations in each target make up. -/
def assembled (outputType : OutputType) (lists : Target → List (String × String)) : String :=
  Text.joinWith ";\n"
    (outputType.targets.map fun t => t.header ++ t.combine ((lists t).map Prod.snd))

/-- The declarations of definitions in one target, each beside the name of its schema. -/
def declarationsOf (t : Target) (defs : Definitions) : List (String × String) :=
  (defs.map Prod.fst).zip (writtenDeclarations t defs)

theorem map_fst_declarationsOf (t : Target) (defs : Definitions) :
    (declarationsOf t defs).map Prod.fst = defs.map Prod.fst := by
  rw [declarationsOf, writtenDeclarations, List.map_fst_zip]
  simp

theorem map_snd_declarationsOf (t : Target) (defs : Definitions) :
    (declarationsOf t defs).map Prod.snd = writtenDeclarations t defs := by
  rw [declarationsOf, writtenDeclarations, List.map_snd_zip]
  simp

theorem assembled_declarationsOf (outputType : OutputType) (defs : Definitions) :
    assembled outputType (fun t => declarationsOf t defs) = moduleText defs outputType := by
  simp only [assembled, map_snd_declarationsOf]
  cases outputType <;> rfl

theorem declared_eq_ok_iff {w : TypeWriter} {document : Json} {ds : List (String × String)} :
    declared w document = .ok ds ↔ ∃ defs, definitions document = .ok defs ∧
      firstFault w.strict (nodes defs) = none ∧ declarationsOf w.target defs = ds := by
  obtain ⟨t, strict⟩ := w
  simp only [declared, bind_eq_ok_iff, declarations_eq, unlessFault_eq_ok_iff, pure_eq_ok_iff,
    declarationsOf]
  constructor
  · rintro ⟨defs, hdefs, texts, ⟨hfault, rfl⟩, hds⟩
    exact ⟨defs, hdefs, hfault, hds⟩
  · rintro ⟨defs, hdefs, hfault, hds⟩
    exact ⟨defs, hdefs, _, ⟨hfault, rfl⟩, hds⟩

def namedDeclarations (named : List (String × Schema)) (t : Target) : List (String × String) :=
  named.map fun entry =>
    (entry.1, t.declaration (Name.typeName entry.1) (t.written entry.2.shape))

theorem lowered_of_nodup {named : List (String × Schema)} (h : (named.map Prod.fst).Nodup) :
    lowered named = named.map fun entry => (entry.1, entry.2.shape) := by
  rw [lowered, Members.ofList_of_nodup h]

theorem declarationsOf_lowered {named : List (String × Schema)} (h : (named.map Prod.fst).Nodup)
    (t : Target) : declarationsOf t (lowered named) = namedDeclarations named t := by
  rw [declarationsOf, lowered_of_nodup h, writtenDeclarations, List.map_map, List.map_map,
    List.zip_map']
  rfl

/-- Where generation succeeds, each target declares the decoded schemas one by one. -/
theorem declared_of_generate {options : Options} {document : Json} {text : String}
    {members : List (String × Json)} (hschemas : schemas? document = some (.object members))
    (hkeys : (members.map Prod.fst).Nodup) (h : generate options document = .ok text) :
    ∃ named, DecodesTo Schema.decode members named ∧
      text = assembled options.outputType (namedDeclarations named) ∧
      ∀ t, declared ⟨t, options.exitOnInvalidType⟩ document = .ok (namedDeclarations named t) := by
  obtain ⟨-, members', named, hschemas', hdecode, hfault, rfl⟩ := (generate_eq_ok_iff _ _ _).mp h
  obtain rfl := Json.object.inj (Option.some.inj (hschemas.symm.trans hschemas'))
  have hnamed : (named.map Prod.fst).Nodup := by rwa [Schema.keys_of_decodesTo hdecode]
  have hdefs := definitions_of_declares hschemas ⟨members, rfl, hdecode⟩
  refine ⟨named, hdecode, ?_, fun t => ?_⟩
  · rw [← assembled_declarationsOf, ← funext (declarationsOf_lowered hnamed)]
  · exact declared_eq_ok_iff.mpr ⟨_, hdefs, hfault, declarationsOf_lowered hnamed t⟩

/-! ### The patched document -/

/-- A patch of named schemas and of nothing else. -/
def schemaPatch (new : List (String × Json)) : Json :=
  .object [("components", .object [("schemas", .object new)])]

theorem member?_merge {document value : Json} {key : String} {patch : List (String × Json)}
    (h : document.member? key = some value) :
    (Patch.merge document (.object [(key, .object patch)])).member? key =
      some (Patch.merge value (.object patch)) := by
  have hkeys : ([(key, Json.object patch)].map Prod.fst).Nodup := List.nodup_singleton key
  rw [Patch.member?_merge_object hkeys, h, Members.find?_cons, if_pos rfl]
  rfl

theorem schemas?_merge {document : Json} {old : List (String × Json)}
    (h : schemas? document = some (.object old)) (new : List (String × Json)) :
    schemas? (Patch.merge document (schemaPatch new)) =
      some (.object (Patch.mergeMembers old new)) := by
  obtain ⟨components, hcomponents, hschemas⟩ := Option.bind_eq_some_iff.mp h
  rw [schemas?, schemaPatch, member?_merge hcomponents, Option.bind_some, member?_merge hschemas,
    Patch.merge]
  rfl

/-! ### What a patch leaves alone -/

/-- Schemas that a patch does not name are decoded alike before and after it. -/
theorem filter_named_mergeMembers {old new : List (String × Json)}
    {named patched : List (String × Schema)} (hold : DecodesTo Schema.decode old named)
    (hnew : DecodesTo Schema.decode (Patch.mergeMembers old new) patched) :
    patched.filter (fun e => e.1 ∉ new.map Prod.fst) =
      named.filter fun e => e.1 ∉ new.map Prod.fst := by
  have hmembers : (Patch.mergeMembers old new).filter (fun m => m.1 ∉ new.map Prod.fst) =
      old.filter fun m => m.1 ∉ new.map Prod.fst := by
    refine Patch.filter_mergeMembers (fun key hkey _ => ?_) old
    simpa using hkey
  have hpatched := hnew.filter_keys fun key => key ∉ new.map Prod.fst
  rw [hmembers] at hpatched
  exact hpatched.unique (hold.filter_keys fun key => key ∉ new.map Prod.fst)

theorem keys_namedDeclarations {members : List (String × Json)} {named : List (String × Schema)}
    (h : DecodesTo Schema.decode members named) (t : Target) :
    (namedDeclarations named t).map Prod.fst = members.map Prod.fst := by
  rw [namedDeclarations, List.map_map, ← Schema.keys_of_decodesTo h]
  rfl

theorem filter_namedDeclarations (named : List (String × Schema)) (t : Target)
    (p : String → Bool) :
    (namedDeclarations named t).filter (fun d => p d.1) =
      namedDeclarations (named.filter fun e => p e.1) t := by
  rw [namedDeclarations, List.filter_map]
  rfl

/-- How the declarations of one target change under a patch `new` of the schemas `old`. -/
structure PatchedBy (old new : List (String × Json)) (before after : List (String × String)) :
    Prop where
  formerNames : before.map Prod.fst = old.map Prod.fst
  /-- Names mapped to `null` are gone, the others are in their order, and behind them stand
  the new names, in the order of the patch. -/
  names : after.map Prod.fst =
    (old.map Prod.fst).filter (fun name => (name, Json.null) ∉ new) ++
      (new.filter fun m => m.2 ≠ .null ∧ m.1 ∉ old.map Prod.fst).map Prod.fst
  /-- The declarations of names outside the patch are the same, in the same order. -/
  others : after.filter (fun d => d.1 ∉ new.map Prod.fst) =
    before.filter fun d => d.1 ∉ new.map Prod.fst

/-- A patch of named schemas is local: in every target the declarations of all other
schemas stay as they are and where they are. -/
theorem patch_is_local {options : Options} {document : Json} {old new : List (String × Json)}
    {before after : String} (hdocument : document.Distinct) (hpatch : (schemaPatch new).Distinct)
    (hold : schemas? document = some (.object old))
    (hbefore : generate options document = .ok before)
    (hafter : generate options (Patch.merge document (schemaPatch new)) = .ok after) :
    ∃ unpatched patched : Target → List (String × String),
      before = assembled options.outputType unpatched ∧
      after = assembled options.outputType patched ∧
      ∀ t ∈ options.outputType.targets,
        declared ⟨t, options.exitOnInvalidType⟩ document = .ok (unpatched t) ∧
        declared ⟨t, options.exitOnInvalidType⟩ (Patch.merge document (schemaPatch new)) =
          .ok (patched t) ∧
        PatchedBy old new (unpatched t) (patched t) := by
  have holdKeys : (old.map Prod.fst).Nodup := (distinct_of_schemas? hdocument hold).1
  have hnewKeys : (new.map Prod.fst).Nodup :=
    (distinct_of_schemas? hpatch (rfl : schemas? (schemaPatch new) = some (.object new))).1
  have hkeys := Patch.nodup_keys_mergeMembers holdKeys hnewKeys
  obtain ⟨named, hnamed, hbefore, hunpatched⟩ := declared_of_generate hold holdKeys hbefore
  obtain ⟨patchedSchemas, hpatchedSchemas, hafter, hpatched⟩ :=
    declared_of_generate (schemas?_merge hold new) hkeys hafter
  refine ⟨namedDeclarations named, namedDeclarations patchedSchemas, hbefore, hafter, fun t _ => ?_⟩
  refine ⟨hunpatched t, hpatched t, keys_namedDeclarations hnamed t, ?_, ?_⟩
  · rw [keys_namedDeclarations hpatchedSchemas, Patch.keys_mergeMembers hnewKeys]
  · have hfilter := fun named =>
      filter_namedDeclarations named t fun key => key ∉ new.map Prod.fst
    rw [hfilter, hfilter, filter_named_mergeMembers hnamed hpatchedSchemas]

/-- Three schemas, of which a patch removes the first and changes the second. -/
def threeSchemas : Json :=
  ofSchemas [("A", .object [("type", .string "string")]),
    ("B", .object [("type", .string "number")]), ("C", .object [("type", .string "boolean")])]

def threeSchemasPatch : List (String × Json) :=
  [("D", .object [("type", .string "null")]), ("B", .object [("nullable", .bool true)]),
    ("A", .null), ("E", .null)]

theorem patch_is_local_for_codecs :
    threeSchemas.Distinct ∧ (schemaPatch threeSchemasPatch).Distinct ∧
    ∃ old before after, schemas? threeSchemas = some (.object old) ∧
      generate ⟨.codec, false⟩ threeSchemas = .ok before ∧
      generate ⟨.codec, false⟩ (Patch.merge threeSchemas (schemaPatch threeSchemasPatch)) =
        .ok after ∧
      ∃ unpatched patched : Target → List (String × String),
        before = assembled .codec unpatched ∧ after = assembled .codec patched ∧
        ∀ t ∈ OutputType.codec.targets, PatchedBy old threeSchemasPatch (unpatched t) (patched t) ∧
          (patched t).map Prod.fst = ["B", "C", "D"] := by
  have hdocument : threeSchemas.Distinct := by decide +kernel
  have hpatch : (schemaPatch threeSchemasPatch).Distinct := by decide +kernel
  obtain ⟨old, hold⟩ : ∃ old, schemas? threeSchemas = some (.object old) := ⟨_, rfl⟩
  obtain ⟨before, hbefore⟩ : ∃ text, generate ⟨.codec, false⟩ threeSchemas = .ok text := ⟨_, rfl⟩
  obtain ⟨after, hafter⟩ : ∃ text, generate ⟨.codec, false⟩
      (Patch.merge threeSchemas (schemaPatch threeSchemasPatch)) = .ok text := ⟨_, rfl⟩
  obtain ⟨unpatched, patched, htextBefore, htextAfter, hlocal⟩ :=
    patch_is_local hdocument hpatch hold hbefore hafter
  refine ⟨hdocument, hpatch, old, before, after, hold, hbefore, hafter, unpatched, patched,
    htextBefore, htextAfter, fun t ht => ?_⟩
  obtain ⟨-, -, hpatched⟩ := hlocal t ht
  refine ⟨hpatched, ?_⟩
  obtain rfl := Json.object.inj (Option.some.inj hold)
  rw [hpatched.names]
  decide +kernel

end Document

end ApiTypes
