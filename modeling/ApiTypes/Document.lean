import ApiTypes.OutputType
import ApiTypes.Schema.Decode
import ApiTypes.Schema.Shape
import ApiTypes.Target.Codec
import ApiTypes.Target.Flow
import ApiTypes.Target.TypeScript
import ApiTypes.TypeWriter
import ApiTypes.Unicode.Digit

/-!
# Documents

A document is an API description.  Its version is checked, its named schemas
are decoded all at once, and each is declared in document order.  A codec
module is preceded by the TypeScript module of the same schemas.
-/

namespace ApiTypes

/-- How a module is generated. -/
structure Options where
  outputType : OutputType := .typeScript
  /-- Whether a schema without a known type is a failure. -/
  exitOnInvalidType : Bool := false

namespace Document

/-- Whether a version is `3.0.` followed by decimal digits. -/
def isSupported (version : String) : Bool :=
  match version.toList with
  | '3' :: '.' :: '0' :: '.' :: patch => !patch.isEmpty && patch.all Unicode.isDigit
  | _ => false

def version? (document : Json) : Option String :=
  (document.member? "openapi").bind Json.asString?

def checkVersion (document : Json) : Except GenerationError Unit :=
  match version? document with
  | some version =>
    if isSupported version then .ok () else .error (.unsupportedVersion (some version))
  | none => .error (.unsupportedVersion none)

/-- The named schemas of a document, as it holds them. -/
def schemas? (document : Json) : Option Json :=
  (document.member? "components").bind (·.member? "schemas")

/-- The shapes of the named schemas. -/
def definitions (document : Json) : Except GenerationError Definitions :=
  match schemas? document with
  | none => .error .missingDefinitions
  | some schemas =>
    match Schema.decodeMap.onValue schemas with
    | .ok named => .ok (named.map fun entry => (entry.1, entry.2.shape))
    | .error failure => .error (.malformedSchema failure.message)

def declarations (w : TypeWriter) : Definitions → Except GenerationError (List String)
  | [] => .ok []
  | (name, shape) :: rest => do
    let type ← w.shape shape
    let others ← declarations w rest
    pure (w.target.declaration (Name.typeName name) type :: others)

def renderModule (target : Target) (strict : Bool) (definitions : Definitions) :
    Except GenerationError String :=
  (declarations ⟨target, strict⟩ definitions).map fun texts =>
    target.header ++ target.combine texts

def generate (options : Options) (document : Json) : Except GenerationError String := do
  checkVersion document
  let defs ← definitions document
  let strict := options.exitOnInvalidType
  match options.outputType with
  | .typeScript => renderModule .typeScript strict defs
  | .flow => renderModule .flow strict defs
  | .codec =>
    let types ← renderModule .typeScript strict defs
    let codecs ← renderModule .codec strict defs
    pure (types ++ ";\n" ++ codecs)

end Document

end ApiTypes
