import ApiTypes.Json.StringReader
import ApiTypes.Name
import ApiTypes.Proofs.Quoting
import ApiTypes.Proofs.TypeTree
import ApiTypes.Target.Flow
import ApiTypes.Target.TypeScript

/-!
# Reading static types

A dialect is one of the two notations for static types.  `Dialect.read` reads a
type expression the way the notation itself groups it:

    union        ::= intersection ('|' intersection)*
    intersection ::= operand ('&' operand)*
    operand      ::= '?' operand | '(' union ')' | 'Array<' union '>'
                   | '{' fields '}' | literal | identifier
    field        ::= string ':' union | string '?:' union

The prefix `?` belongs to Flow alone.  There are no blanks.
-/

namespace ApiTypes
open Name (isIdentifierChar)

inductive Dialect where
  | typeScript
  | flow
deriving DecidableEq, Repr

namespace Dialect

def target : Dialect → Target
  | typeScript => .typeScript
  | flow => .flow

/-- The words that are types of the notation itself. -/
def builtins : Dialect → List String
  | typeScript =>
    ["any", "bigint", "boolean", "false", "never", "null", "number", "object", "string", "symbol",
     "this", "true", "undefined", "unknown", "void"]
  | flow =>
    ["any", "bigint", "bool", "boolean", "empty", "false", "mixed", "null", "number", "string",
     "symbol", "this", "true", "void"]

def top : Dialect → String
  | typeScript => "unknown"
  | flow => "mixed"

def bottom : Dialect → String
  | typeScript => "never"
  | flow => "empty"

/-- What a nullable type admits besides. -/
def absence : Dialect → List TypeTree
  | typeScript => [.builtin "null"]
  | flow => [.builtin "null", .builtin "void"]

def nullable (d : Dialect) (t : TypeTree) : TypeTree := .union (t :: d.absence)

/-- A union as it is read: a single member stands for itself. -/
def unionOf : List TypeTree → TypeTree
  | [t] => t
  | members => .union members

def intersectionOf : List TypeTree → TypeTree
  | [t] => t
  | parts => .intersection parts

def wordTree (d : Dialect) (word : String) : TypeTree :=
  if word ∈ d.builtins then .builtin word else .named word

/-- Whether a run of identifier characters is an identifier. -/
def startsWord : List Char → Bool
  | [] => false
  | c :: _ => !c.isDigit

/-- Reads a field name and the colon after it, with a question mark between
the two where the field is optional. -/
def readKey : List Char → Option ((String × Bool) × List Char)
  | '"' :: cs =>
    match Json.readString ⟨cs, 0⟩ with
    | .ok (name, ⟨'?' :: ':' :: cs, _⟩) => some ((name, false), cs)
    | .ok (name, ⟨':' :: cs, _⟩) => some ((name, true), cs)
    | _ => none
  | _ => none

mutual

def readUnion (d : Dialect) : Nat → List Char → Option (List TypeTree × List Char)
  | 0, _ => none
  | fuel + 1, cs =>
    match readIntersection d fuel cs with
    | some (parts, '|' :: cs) =>
      (readUnion d fuel cs).map fun (members, cs) => (intersectionOf parts :: members, cs)
    | some (parts, cs) => some ([intersectionOf parts], cs)
    | none => none

def readIntersection (d : Dialect) : Nat → List Char → Option (List TypeTree × List Char)
  | 0, _ => none
  | fuel + 1, cs =>
    match readOperand d fuel cs with
    | some (t, '&' :: cs) => (readIntersection d fuel cs).map fun (parts, cs) => (t :: parts, cs)
    | some (t, cs) => some ([t], cs)
    | none => none

def readOperand (d : Dialect) : Nat → List Char → Option (TypeTree × List Char)
  | 0, _ => none
  | fuel + 1, '?' :: cs =>
    if d = flow then (readOperand d fuel cs).map fun (t, cs) => (d.nullable t, cs) else none
  | fuel + 1, '(' :: cs =>
    match readUnion d fuel cs with
    | some (members, ')' :: cs) => some (unionOf members, cs)
    | _ => none
  | _ + 1, '\'' :: cs =>
    (Text.readLiteral cs).map fun (value, cs) => (.literal (String.ofList value), cs)
  | _ + 1, '\x7b' :: '\x7d' :: cs => some (.record [], cs)
  | fuel + 1, '\x7b' :: cs => (readFields d fuel cs).map fun (slots, cs) => (.record slots, cs)
  | fuel + 1, cs =>
    let word := cs.takeWhile isIdentifierChar
    if !startsWord word then none
    else
      match cs.dropWhile isIdentifierChar with
      | '<' :: cs =>
        if word = "Array".toList then
          match readUnion d fuel cs with
          | some (members, '>' :: cs) => some (.array (unionOf members), cs)
          | _ => none
        else none
      | cs => some (d.wordTree (String.ofList word), cs)

def readFields (d : Dialect) : Nat → List Char → Option (List Slot × List Char)
  | 0, _ => none
  | fuel + 1, cs =>
    match readKey cs with
    | none => none
    | some ((name, required), cs) =>
      match readUnion d fuel cs with
      | some (members, ',' :: cs) =>
        (readFields d fuel cs).map fun (slots, cs) =>
          (.mk name required (unionOf members) :: slots, cs)
      | some (members, '\x7d' :: cs) => some ([.mk name required (unionOf members)], cs)
      | _ => none

end

/-- The tree of a type expression; nothing for a text that is none. -/
def read (d : Dialect) (text : String) : Option TypeTree :=
  match readUnion d (3 * text.length + 3) text.toList with
  | some (members, []) => some (unionOf members)
  | _ => none

end Dialect

end ApiTypes
