import ApiTypes.Decoding.Failure
import ApiTypes.Json.Reader

/-!
# Decoders

A decoder takes a located value and gives a value of its own type or the first
failure in the order of the text.
-/

namespace ApiTypes
open Json (Node Label Finish Scalar)

namespace Json.Node

/-- The failure of a value that does not fit `expected`: a fault where the text
is broken, the kind found otherwise.  A list or an object is refused before its
bracket, any other value after its end. -/
def refusal (expected : String) : Node → Failure
  | .scalar .null stop => ⟨[], .wrongType .null expected, stop⟩
  | .scalar (.bool b) stop => ⟨[], .wrongType (.bool b) expected, stop⟩
  | .scalar (.number n) stop => ⟨[], .wrongType (.number n) expected, stop⟩
  | .scalar (.string s) stop => ⟨[], .wrongType (.string s) expected, stop⟩
  | .array start _ _ => ⟨[], .wrongType .sequence expected, start⟩
  | .object start _ _ => ⟨[], .wrongType .map expected, start⟩
  | .broken fault => .ofFault fault

def isNull : Node → Bool
  | .scalar .null _ => true
  | _ => false

end Json.Node

namespace Json.Finish

def checkList : Finish → Except Failure Unit
  | .closed _ => .ok ()
  | .atEntry fault | .atColon _ fault | .atOpening fault => .error (.ofFault fault)

/-- The failure of an object that does not end; a member whose key cannot be
read has an unknown path. -/
def checkObject : Finish → Except Failure Unit
  | .closed _ => .ok ()
  | .atEntry fault => .error ((Failure.ofFault fault).under .unknown)
  | .atColon _ fault | .atOpening fault => .error (.ofFault fault)

end Json.Finish

abbrev Decoder (α : Type) := Node → Except Failure α

namespace Decoder

def string : Decoder String
  | .scalar (.string s) _ => .ok s
  | node => .error (node.refusal "a string")

def bool : Decoder Bool
  | .scalar (.bool b) _ => .ok b
  | node => .error (node.refusal "a boolean")

/-- An integer below `2^32`. -/
def word32 : Decoder Nat
  | .scalar (.number (.integer n)) stop =>
    if 0 ≤ n ∧ n < Nat.pow 2 32 then .ok n.toNat
    else .error ⟨[], .wrongValue (.number (.integer n)) "u32", stop⟩
  | node => .error (node.refusal "u32")

def items {α : Type} (item : Decoder α) : Nat → List Node → Except Failure (List α)
  | _, [] => .ok []
  | i, node :: rest => do
    let a ← within (.index i) (item node)
    let as ← items item (i + 1) rest
    pure (a :: as)

def list {α : Type} (item : Decoder α) : Decoder (List α)
  | .array _ nodes finish => do
    let as ← items item 0 nodes
    finish.checkList
    pure as
  | node => .error (node.refusal "a sequence")

def members {α : Type} (value : Decoder α) :
    List (Label × Node) → Except Failure (List (String × α))
  | [] => .ok []
  | (label, node) :: rest => do
    let a ← within (.key label.key) (value node)
    let as ← members value rest
    pure ((label.key, a) :: as)

/-- An object as an ordered map, each value by `value`. -/
def map {α : Type} (value : Decoder α) : Decoder (List (String × α))
  | .object _ nodes finish => do
    let as ← members value nodes
    finish.checkObject
    pure (Members.ofList as)
  | node => .error (node.refusal "a map")

/-- The value where there is one, nothing for `null`. -/
def optional {α : Type} (value : Decoder α) : Decoder (Option α) := fun node =>
  if node.isNull then .ok none else (value node).map some

mutual

/-- Any value at all: only a fault of the text is a failure. -/
def check : Node → Except Failure Unit
  | .scalar _ _ => .ok ()
  | .array _ nodes finish => do
    checkItems 0 nodes
    finish.checkList
  | .object _ nodes finish => do
    checkMembers nodes
    finish.checkObject
  | .broken fault => .error (.ofFault fault)

def checkItems : Nat → List Node → Except Failure Unit
  | _, [] => .ok ()
  | i, node :: rest => do
    within (.index i) (check node)
    checkItems (i + 1) rest

def checkMembers : List (Label × Node) → Except Failure Unit
  | [] => .ok ()
  | (label, node) :: rest => do
    within (.key label.key) (check node)
    checkMembers rest

end

def json : Decoder Json := fun node => do
  check node
  pure node.toJson

def onValue {α : Type} (decoder : Decoder α) (value : Json) : Except Failure α :=
  decoder (Node.ofJson value)

/-- Runs a decoder on the value a text begins with; what follows the value is
not looked at. -/
def onText {α : Type} (decoder : Decoder α) (text : String) : Except Failure α :=
  decoder (Json.readNode Json.nestingLimit (Json.Cursor.ofString text)).1

end Decoder

end ApiTypes
