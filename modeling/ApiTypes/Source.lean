import ApiTypes.Files.Path
import ApiTypes.Json.Reader
import ApiTypes.Yaml.Value

/-!
# Sources

A document is read as JSON or YAML.  The name of its source decides: the
extension of the last component of its path says which, and without a known
extension JSON is tried first.
-/

namespace ApiTypes.Source

inductive Format where
  | json
  | yaml
  /-- JSON if it can be read as JSON, YAML otherwise. -/
  | either
deriving DecidableEq, Repr

/-- The format of a source.  A query or a fragment does not belong to its path. -/
def format (source : String) : Format :=
  match Path.extension (source.toList.takeWhile fun c => c ≠ '?' ∧ c ≠ '#') with
  | some ext =>
    match String.ofList ext with
    | "json" => .json
    | "yaml" | "yml" => .yaml
    | _ => .either
  | none => .either

/-- Why a source cannot be parsed. -/
inductive ParseError where
  | json (source : String) (message : String)
  | yaml (source : String)
  /-- The source is neither JSON nor YAML. -/
  | neither (source : String)
deriving DecidableEq, Repr

def ParseError.message : ParseError → String
  | json source message => "failed to parse JSON (" ++ source ++ "): " ++ message
  | yaml source => "failed to parse YAML (" ++ source ++ ")"
  | neither source => "failed to parse " ++ source ++ " as JSON or YAML"

def parse (source text : String) : Except ParseError Json :=
  match format source with
  | .json =>
    match Json.parse text with
    | .ok document => .ok document
    | .error fault => .error (.json source (fault.message text))
  | .yaml =>
    match Yaml.parse text with
    | some document => .ok document
    | none => .error (.yaml source)
  | .either =>
    match Json.parse text with
    | .ok document => .ok document
    | .error _ =>
      match Yaml.parse text with
      | some document => .ok document
      | none => .error (.neither source)

end ApiTypes.Source
