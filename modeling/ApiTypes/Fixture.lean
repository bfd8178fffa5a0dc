import ApiTypes.Document
import ApiTypes.Json.Skipper

/-!
# Fixtures

A fixture is a document, the options to generate its module with, and what is
expected: a module, or how the message of a failure begins.  Its text is a JSON
object, or a list of its parts in their order.  What follows the fixture in the
text is not looked at.
-/

namespace ApiTypes
open Json (Cursor Node)

structure Fixture where
  options : Options
  document : Json
  expected : Option String
  /-- The beginning of the expected failure's message. -/
  expectedError : Option String

namespace Fixture

/-! ### Reading -/

/-- The parts of a fixture that have been read. -/
structure Draft where
  outputType : Option OutputType := none
  exitOnInvalidType : Option Bool := none
  document : Option Json := none
  expected : Option (Option String) := none
  expectedError : Option (Option String) := none

/-- The parts of a fixture. -/
inductive Part where
  | outputType
  | exitOnInvalidType
  | document
  | expected
  | expectedError
deriving DecidableEq, Repr

namespace Part

def key : Part → String
  | outputType => "output_type"
  | exitOnInvalidType => "exit_on_invalid_type"
  | document => "document"
  | expected => "expected"
  | expectedError => "expected_error"

def all : List Part := [outputType, exitOnInvalidType, document, expected, expectedError]

def ofKey? (k : String) : Option Part := all.find? fun p => p.key == k

def isRequired : Part → Bool
  | outputType | document => true
  | _ => false

end Part

def Draft.has (d : Draft) : Part → Bool
  | .outputType => d.outputType.isSome
  | .exitOnInvalidType => d.exitOnInvalidType.isSome
  | .document => d.document.isSome
  | .expected => d.expected.isSome
  | .expectedError => d.expectedError.isSome

/-- Reads one value by a decoder, inside one bracket. -/
def readBy {α : Type} (decoder : Decoder α) (c : Cursor) : Except Failure (α × Cursor) :=
  match Json.readNode (Json.nestingLimit - 1) c with
  | (node, next) => do
    let a ← decoder node
    match next with
    | some c => pure (a, c)
    | none => throw (node.refusal "a value")

def readPart (d : Draft) (p : Part) (c : Cursor) : Except Failure (Draft × Cursor) :=
  match p with
  | .outputType => (OutputType.read c).map fun (t, c) => ({ d with outputType := some t }, c)
  | .exitOnInvalidType =>
    (readBy Decoder.bool c).map fun (b, c) => ({ d with exitOnInvalidType := some b }, c)
  | .document => (readBy Decoder.json c).map fun (j, c) => ({ d with document := some j }, c)
  | .expected =>
    (readBy (Decoder.optional Decoder.string) c).map fun (s, c) =>
      ({ d with expected := some s }, c)
  | .expectedError =>
    (readBy (Decoder.optional Decoder.string) c).map fun (s, c) =>
      ({ d with expectedError := some s }, c)

def readMembers : Nat → Draft → (isFirst : Bool) → Cursor → Except Failure (Draft × Nat)
  | 0, _, _, c => .error (.ofFault (c.fault .endInObject))
  | fuel + 1, d, isFirst, c =>
    match Json.nextMember isFirst c with
    | .error fault => .error ((Failure.ofFault fault).under .unknown)
    | .ok (.close c) => .ok (d, c.offset)
    | .ok (.entry c) =>
      match Json.readLabel c with
      | .error fault => .error ((Failure.ofFault fault).under .unknown)
      | .ok (label, c) =>
        match Part.ofKey? label.key with
        | none => do
          let c ← OutputType.orFail (Json.readColon c)
          let c ← within (.key label.key) (OutputType.orFail (Json.skipValue c))
          readMembers fuel d false c
        | some p =>
          if d.has p then .error ⟨[], .repeatedKey label.key, label.stop⟩
          else do
            let c ← OutputType.orFail (Json.readColon c)
            let (d, c) ← within (.key label.key) (readPart d p c)
            readMembers fuel d false c

/-- Passes the end of a list, behind which no part is expected. -/
def readListEnd (c : Cursor) : Except Failure Nat :=
  let c := c.skipBlanks
  match c.rest with
  | [] => .error (.ofFault (c.fault .endInList))
  | ']' :: _ => .ok c.next.offset
  | ',' :: _ =>
    let c := c.next.skipBlanks
    match c.rest with
    | ']' :: _ => .error (.ofFault (c.faultAhead .trailingComma))
    | _ => .error (.ofFault (c.faultAhead .trailingCharacters))
  | _ => .error (.ofFault (c.faultAhead .trailingCharacters))

/-- Reads the parts that are left of a list, from index `i` on. -/
def readItems : (i : Nat) → Draft → List Part → Cursor → Except Failure (Draft × Nat)
  | _, d, [], c => (readListEnd c).map fun stop => (d, stop)
  | i, d, p :: parts, c =>
    match Json.nextItem (i = 0) c with
    | .error fault => .error (.ofFault fault)
    | .ok (.close c) =>
      match (p :: parts).findIdx? Part.isRequired with
      | some n =>
        .error ⟨[], .wrongLength (i + n) "struct Fixture with 5 elements", c.offset⟩
      | none => .ok (d, c.offset)
    | .ok (.entry c) => do
      let (d, c) ← within (.index i) (readPart d p c)
      readItems (i + 1) d parts c

/-- The fixture of the parts; `stop` is where they end. -/
def ofDraft (d : Draft) (stop : Nat) : Except Failure Fixture :=
  match d.outputType, d.document with
  | some outputType, some document =>
    .ok ⟨⟨outputType, d.exitOnInvalidType.getD false⟩, document, d.expected.getD none,
      d.expectedError.getD none⟩
  | none, _ => .error ⟨[], .missingKey Part.outputType.key, stop⟩
  | _, none => .error ⟨[], .missingKey Part.document.key, stop⟩

def ofText (text : String) : Except Failure Fixture := do
  let c := (Cursor.ofString text).skipBlanks
  match c.rest with
  | '[' :: _ =>
    let (d, stop) ← readItems 0 {} Part.all c.next
    ofDraft d stop
  | '\x7b' :: _ =>
    let (d, stop) ← readMembers (c.rest.length + 1) {} true c.next
    ofDraft d stop
  | _ => throw ((Json.readNode Json.nestingLimit c).1.refusal "struct Fixture")

/-! ### Judging -/

/-- What comes of a fixture. -/
inductive Outcome where
  | passed
  | failed (reason : String)
deriving DecidableEq, Repr

def compare (fixture : Fixture) : Except GenerationError String → Outcome
  | .ok actual =>
    match fixture.expected with
    | some expected =>
      if actual = expected then .passed
      else .failed ("expected:\n" ++ expected ++ "\nactual:\n" ++ actual)
    | none => .failed ("expected an error, got:\n" ++ actual)
  | .error e =>
    match fixture.expectedError with
    | some start =>
      if start.toList.isPrefixOf e.message.toList then .passed
      else .failed ("unexpected error: " ++ e.message)
    | none => .failed ("unexpected error: " ++ e.message)

def outcome (fixture : Fixture) : Outcome :=
  fixture.compare (Document.generate fixture.options fixture.document)

def judge (text : String) : Outcome :=
  match ofText text with
  | .ok fixture => fixture.outcome
  | .error failure => .failed ("malformed fixture " ++ failure.messageIn text)

end Fixture

end ApiTypes
