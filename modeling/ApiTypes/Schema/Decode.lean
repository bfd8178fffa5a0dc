import ApiTypes.Decoding.Basic
import ApiTypes.Schema.Basic

/-!
# Decoding schemas

A schema is decoded from an object, member by member in document order.  A
keyword with `null` is absent, a keyword that is repeated is a failure, and any
other key is kept with its value.
-/

namespace ApiTypes
open Json (Node Label Finish)

namespace Schema

/-- What has been decoded of an object: the schema so far and the keywords met. -/
structure Progress where
  schema : Schema := {}
  seen : List Keyword := []

/-- The failure of a keyword that is met again. -/
def checkFresh (seen : List Keyword) (keyword : Keyword) (label : Label) :
    Except Failure Unit :=
  if keyword ∈ seen then .error ⟨[], .repeatedKey keyword.name, label.stop⟩ else .ok ()

/-- The failure of an object that does not end.  A repeated keyword is noticed
before the colon that is missing after it. -/
def checkFinish (seen : List Keyword) : Finish → Except Failure Unit
  | .atColon label fault =>
    match Keyword.ofName? label.key with
    | some keyword => do
      checkFresh seen keyword label
      .error (.ofFault fault)
    | none => .error (.ofFault fault)
  | finish => finish.checkObject

mutual

def decode : Node → Except Failure Schema
  | .object _ members finish => do
    let progress ← decodeMembers {} members
    checkFinish progress.seen finish
    pure progress.schema
  | node => .error (node.refusal "struct RawSchema")

def decodeMembers (p : Progress) : List (Label × Node) → Except Failure Progress
  | [] => .ok p
  | (label, node) :: rest =>
    match Keyword.ofName? label.key with
    | none => do
      let value ← within (.key label.key) (Decoder.json node)
      let schema := { p.schema with extra := Members.insert label.key value p.schema.extra }
      decodeMembers { p with schema } rest
    | some keyword => do
      checkFresh p.seen keyword label
      let s := p.schema
      let schema ← within (.key label.key) (
        match keyword with
        | .reference =>
          (Decoder.optional Decoder.string node).map fun v => { s with reference := v }
        | .allOf => (decodeListOption node).map fun v => { s with allOf := v }
        | .anyOf => (decodeListOption node).map fun v => { s with anyOf := v }
        | .oneOf => (decodeListOption node).map fun v => { s with oneOf := v }
        | .type => (Decoder.optional Decoder.string node).map fun v => { s with type := v }
        | .items =>
          if node.isNull then .ok { s with items := none }
          else (decode node).map fun v => { s with items := some v }
        | .properties => (decodeMapOption node).map fun v => { s with properties := v }
        | .required =>
          (Decoder.optional (Decoder.list Decoder.string) node).map fun v =>
            { s with required := v }
        | .enum =>
          (Decoder.optional (Decoder.list Decoder.json) node).map fun v => { s with enum := v }
        | .nullable => (Decoder.optional Decoder.bool node).map fun v => { s with nullable := v })
      decodeMembers ⟨schema, keyword :: p.seen⟩ rest

/-- Decodes a list of schemas, or nothing from `null`. -/
def decodeListOption : Node → Except Failure (Option (List Schema))
  | .scalar .null _ => .ok none
  | .array _ items finish => do
    let schemas ← decodeItems 0 items
    finish.checkList
    pure (some schemas)
  | node => .error (node.refusal "a sequence")

def decodeItems : Nat → List Node → Except Failure (List Schema)
  | _, [] => .ok []
  | i, node :: rest => do
    let s ← within (.index i) (decode node)
    let schemas ← decodeItems (i + 1) rest
    pure (s :: schemas)

/-- Decodes an ordered map of schemas, or nothing from `null`. -/
def decodeMapOption : Node → Except Failure (Option (List (String × Schema)))
  | .scalar .null _ => .ok none
  | .object _ members finish => do
    let schemas ← decodeNamed members
    finish.checkObject
    pure (some (Members.ofList schemas))
  | node => .error (node.refusal "a map")

def decodeNamed : List (Label × Node) → Except Failure (List (String × Schema))
  | [] => .ok []
  | (label, node) :: rest => do
    let s ← within (.key label.key) (decode node)
    let schemas ← decodeNamed rest
    pure ((label.key, s) :: schemas)

end

def decodeMap : Decoder (List (String × Schema)) := Decoder.map decode

end Schema

end ApiTypes
