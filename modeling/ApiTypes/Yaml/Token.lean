/-!
# YAML tokens

The parts of a YAML text in their order.  Indentation has become tokens that
open and close collections, and a key that is marked only by the colon behind
it has a token in front.
-/

namespace ApiTypes.Yaml

inductive Token where
  | streamEnd
  /-- A version directive. -/
  | version (major minor : Nat)
  /-- A tag directive: what a tag handle stands for. -/
  | handle (name value : String)
  | documentStart
  | documentEnd
  | blockSequence
  | blockMapping
  | blockEnd
  | flowSequence
  | flowSequenceEnd
  | flowMapping
  | flowMappingEnd
  | blockEntry
  | flowEntry
  | key
  | value
  | alias (name : String)
  | anchor (name : String)
  | tag (handle rest : String)
  | scalar (text : String) (plain : Bool)
deriving DecidableEq, Repr, Inhabited

end ApiTypes.Yaml
