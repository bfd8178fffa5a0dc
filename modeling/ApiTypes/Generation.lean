/-!
# Failures of generation

Why no module is generated for a document.
-/

namespace ApiTypes

/-- Why generation fails. -/
inductive GenerationError where
  /-- The document's version, if it has one, is not supported. -/
  | unsupportedVersion (version : Option String)
  /-- The document has no named schemas. -/
  | missingDefinitions
  /-- A schema has no known type; `source` is its JSON text. -/
  | invalidType (source : String)
  /-- A schema has several composite keywords. -/
  | conflictingComposites (keywords : String) (source : String)
  /-- The named schemas cannot be decoded. -/
  | malformedSchema (message : String)
deriving DecidableEq, Repr

def GenerationError.message : GenerationError → String
  | unsupportedVersion version =>
    "unsupported version " ++ version.getD "<missing>" ++ ": expected 3.0.x"
  | missingDefinitions => "no definitions: document has no `components.schemas` section"
  | invalidType source => "invalid type: " ++ source
  | conflictingComposites keywords source =>
    "conflicting composite keywords (" ++ keywords ++ ") in " ++ source
  | malformedSchema message => "malformed schema " ++ message

end ApiTypes
