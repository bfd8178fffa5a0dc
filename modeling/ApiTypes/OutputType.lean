import ApiTypes.Decoding.Basic

/-!
# Output types

What kind of module is generated.  In JSON an output type is its name, or an
object whose only member has that name and the value `null`.
-/

namespace ApiTypes
open Json (Cursor Fault Node)

/-- What kind of module is generated. -/
inductive OutputType where
  | typeScript
  | flow
  | codec
deriving DecidableEq, Repr

namespace OutputType

def name : OutputType → String
  | typeScript => "typescript"
  | flow => "flow"
  | codec => "codec"

def all : List OutputType := [typeScript, flow, codec]

def ofName (offset : Nat) (name : String) : Except Failure OutputType :=
  match all.find? (fun t => t.name == name) with
  | some t => .ok t
  | none => .error ⟨[], .unknownChoice name (all.map OutputType.name), offset⟩

/-- Decodes the value that stands beside a name. -/
def decodeUnit : Decoder Unit
  | .scalar .null _ => .ok ()
  | node => .error (node.refusal "unit")

def ofJson : Json → Except Failure OutputType
  | .string name => ofName 0 name
  | .object [(name, value)] => do
    let t ← ofName 0 name
    within (.key name) (decodeUnit.onValue value)
    pure t
  | .object _ => .error ⟨[], .wrongValue .map "map with a single key", 0⟩
  | value => .error ((Node.ofJson value).refusal "string or map")

def orFail {α : Type} : Except Fault α → Except Failure α
  | .ok a => .ok a
  | .error fault => .error (.ofFault fault)

def readName (c : Cursor) : Except Failure (OutputType × Cursor) :=
  match Json.readNode Json.nestingLimit c with
  | (.scalar (.string name) stop, some c) => (ofName stop name).map fun t => (t, c)
  | (node, _) => .error (node.refusal "variant identifier")

def read (c : Cursor) : Except Failure (OutputType × Cursor) :=
  let c := c.skipBlanks
  match c.rest with
  | [] => .error (.ofFault (c.fault .endInValue))
  | '"' :: _ => readName c
  | '\x7b' :: _ => do
    let (t, c) ← readName c.next
    let c ← orFail (Json.readColon c)
    match Json.readNode Json.nestingLimit c with
    | (node, some after) => do
      within (.key t.name) (decodeUnit node)
      let c := after.skipBlanks
      match c.rest with
      | '\x7d' :: _ => pure (t, c.next)
      | [] => .error (.ofFault (c.fault .endInObject))
      | _ => .error (.ofFault (c.fault .expectedValue))
    | (node, none) => do
      within (.key t.name) (decodeUnit node)
      .error (.ofFault (c.fault .endInValue))
  | _ => .error (.ofFault (c.faultAhead .expectedValue))

def ofText (text : String) : Except Failure OutputType :=
  (read (Cursor.ofString text)).map (·.1)

end OutputType

end ApiTypes
