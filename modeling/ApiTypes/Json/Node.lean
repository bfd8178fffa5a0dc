import ApiTypes.Json.Basic
import ApiTypes.Json.Fault

/-!
# Located JSON

A node is what a text shows of a JSON value: the value with the byte offsets at
which its parts stand, or, where the text breaks, the fault in place of the
part that is missing.  A reader of nodes meets entries in the order of the
text, so the first thing that is wrong with a text for a reader, a fault or a
value of the wrong kind, is the first that the reader meets.
-/

namespace ApiTypes.Json

/-- A value without parts. -/
inductive Scalar where
  | null
  | bool (b : Bool)
  | number (n : Number)
  | string (s : String)
deriving DecidableEq, Repr

/-- A key and the offset of what follows it. -/
structure Label where
  key : String
  stop : Nat
deriving DecidableEq, Repr

/-- How a list or an object ends. -/
inductive Finish where
  /-- By its bracket; `stop` is the offset after it. -/
  | closed (stop : Nat)
  /-- The next entry or its separator is faulty. -/
  | atEntry (fault : Fault)
  /-- No colon follows the last key. -/
  | atColon (label : Label) (fault : Fault)
  /-- It is nested too deeply to be entered. -/
  | atOpening (fault : Fault)
deriving DecidableEq, Repr

def Finish.fault? : Finish → Option Fault
  | .closed _ => none
  | .atEntry fault | .atColon _ fault | .atOpening fault => some fault

/-- A value as it stands in a text. -/
inductive Node where
  /-- `stop` is the offset after the value. -/
  | scalar (value : Scalar) (stop : Nat)
  /-- `start` is the offset of the bracket. -/
  | array (start : Nat) (items : List Node) (finish : Finish)
  /-- `start` is the offset of the brace. -/
  | object (start : Nat) (members : List (Label × Node)) (finish : Finish)
  /-- No value stands here. -/
  | broken (fault : Fault)
deriving Repr

def Scalar.toJson : Scalar → Json
  | .null => .null
  | .bool b => .bool b
  | .number n => .number n
  | .string s => .string s

namespace Node

mutual

/-- The value of a node without faults. -/
def toJson : Node → Json
  | .scalar value _ => value.toJson
  | .array _ items _ => .array (itemsToJson items)
  | .object _ members _ => .object (Members.ofList (membersToJson members))
  | .broken _ => .null

def itemsToJson : List Node → List Json
  | [] => []
  | item :: rest => item.toJson :: itemsToJson rest

/-- The keys and values of the members, repeated keys included. -/
def membersToJson : List (Label × Node) → List (String × Json)
  | [] => []
  | (label, value) :: rest => (label.key, value.toJson) :: membersToJson rest

end

mutual

/-- A value as a node whose offsets mean nothing. -/
def ofJson : Json → Node
  | .null => .scalar .null 0
  | .bool b => .scalar (.bool b) 0
  | .number n => .scalar (.number n) 0
  | .string s => .scalar (.string s) 0
  | .array items => .array 0 (itemsOfJson items) (.closed 0)
  | .object members => .object 0 (membersOfJson members) (.closed 0)

def itemsOfJson : List Json → List Node
  | [] => []
  | item :: rest => ofJson item :: itemsOfJson rest

def membersOfJson : List (String × Json) → List (Label × Node)
  | [] => []
  | (key, value) :: rest => (⟨key, 0⟩, ofJson value) :: membersOfJson rest

end

end Node

end ApiTypes.Json
