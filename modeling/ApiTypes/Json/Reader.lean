import ApiTypes.Json.Node
import ApiTypes.Json.NumberReader
import ApiTypes.Json.StringReader

/-!
# Reading JSON text

`readNode` reads one value into a node and gives the cursor behind it, or none
where the text broke.  At most `nestingLimit` lists and objects may be open at
once.  `parse` reads a whole text.
-/

namespace ApiTypes.Json

/-- How many lists and objects may be open at once. -/
def nestingLimit : Nat := 127

def readWord : List Char → Cursor → Except Fault Cursor
  | [], c => .ok c
  | x :: word, c =>
    match c.rest with
    | [] => .error (c.fault .endInValue)
    | y :: _ => if x = y then readWord word c.next else .error (c.faultAhead .expectedWord)

def readConstant (word : String) (value : Scalar) (c : Cursor) : Node × Option Cursor :=
  match readWord word.toList c with
  | .ok c => (.scalar value c.offset, some c)
  | .error fault => (.broken fault, none)

/-- What stands next in a list or an object. -/
inductive Upcoming where
  /-- An entry, at the cursor. -/
  | entry (c : Cursor)
  /-- The closing bracket; the cursor is behind it. -/
  | close (c : Cursor)

/-- Finds the next item of a list; before the first one no comma stands. -/
def nextItem (isFirst : Bool) (c : Cursor) : Except Fault Upcoming :=
  let c := c.skipBlanks
  match c.rest with
  | [] => .error (c.fault .endInList)
  | ']' :: _ => .ok (.close c.next)
  | x :: _ =>
    if isFirst then .ok (.entry c)
    else if x = ',' then
      let c := c.next.skipBlanks
      match c.rest with
      | [] => .error (c.fault .endInValue)
      | ']' :: _ => .error (c.faultAhead .trailingComma)
      | _ => .ok (.entry c)
    else .error (c.faultAhead .expectedListEnd)

/-- Finds the next member of an object, which begins with a quote. -/
def nextMember (isFirst : Bool) (c : Cursor) : Except Fault Upcoming :=
  let c := c.skipBlanks
  match c.rest with
  | [] => .error (c.fault .endInObject)
  | '\x7d' :: _ => .ok (.close c.next)
  | x :: _ =>
    if isFirst then
      if x = '"' then .ok (.entry c) else .error (c.faultAhead .keyNotString)
    else if x = ',' then
      let c := c.next.skipBlanks
      match c.rest with
      | [] => .error (c.fault .endInValue)
      | '"' :: _ => .ok (.entry c)
      | '\x7d' :: _ => .error (c.faultAhead .trailingComma)
      | _ => .error (c.faultAhead .keyNotString)
    else .error (c.faultAhead .expectedObjectEnd)

/-- The offset behind a key and the blanks after it, the closing brace included
where it follows at once. -/
def labelStop (c : Cursor) : Nat :=
  let c := c.skipBlanks
  match c.rest with
  | '\x7d' :: _ => c.offset + 1
  | _ => c.offset

def readLabel (c : Cursor) : Except Fault (Label × Cursor) :=
  (readString c.next).map fun (key, c) => (⟨key, labelStop c⟩, c)

def readColon (c : Cursor) : Except Fault Cursor :=
  let c := c.skipBlanks
  match c.rest with
  | ':' :: _ => .ok c.next
  | [] => .error (c.fault .endInObject)
  | _ => .error (c.faultAhead .expectedColon)

mutual

/-- Reads a value inside which `depth` brackets may be opened. -/
def readValue : Nat → Nat → Cursor → Node × Option Cursor
  | 0, _, c => (.broken (c.fault .endInValue), none)
  | fuel + 1, depth, c =>
    let c := c.skipBlanks
    match c.rest with
    | [] => (.broken (c.fault .endInValue), none)
    | 'n' :: _ => readConstant "null" .null c
    | 't' :: _ => readConstant "true" (.bool true) c
    | 'f' :: _ => readConstant "false" (.bool false) c
    | '"' :: _ =>
      match readString c.next with
      | .ok (s, c) => (.scalar (.string s) c.offset, some c)
      | .error fault => (.broken fault, none)
    | '[' :: _ =>
      match depth with
      | 0 => (.array c.offset [] (.atOpening (c.faultAhead .tooDeep)), none)
      | depth + 1 =>
        let (items, finish, next) := readItems fuel depth true c.next
        (.array c.offset items finish, next)
    | '\x7b' :: _ =>
      match depth with
      | 0 => (.object c.offset [] (.atOpening (c.faultAhead .tooDeep)), none)
      | depth + 1 =>
        let (members, finish, next) := readMembers fuel depth true c.next
        (.object c.offset members finish, next)
    | x :: _ =>
      if x = '-' ∨ x.isDigit then
        match readNumber c with
        | .ok (n, c) => (.scalar (.number n) c.offset, some c)
        | .error fault => (.broken fault, none)
      else (.broken (c.faultAhead .expectedValue), none)

def readItems : Nat → Nat → Bool → Cursor → List Node × Finish × Option Cursor
  | 0, _, _, c => ([], .atEntry (c.fault .endInList), none)
  | fuel + 1, depth, isFirst, c =>
    match nextItem isFirst c with
    | .error fault => ([], .atEntry fault, none)
    | .ok (.close c) => ([], .closed c.offset, some c)
    | .ok (.entry c) =>
      match readValue fuel depth c with
      | (item, none) => ([item], .closed 0, none)
      | (item, some c) =>
        let (items, finish, next) := readItems fuel depth false c
        (item :: items, finish, next)

def readMembers : Nat → Nat → Bool → Cursor → List (Label × Node) × Finish × Option Cursor
  | 0, _, _, c => ([], .atEntry (c.fault .endInObject), none)
  | fuel + 1, depth, isFirst, c =>
    match nextMember isFirst c with
    | .error fault => ([], .atEntry fault, none)
    | .ok (.close c) => ([], .closed c.offset, some c)
    | .ok (.entry c) =>
      match readLabel c with
      | .error fault => ([], .atEntry fault, none)
      | .ok (label, c) =>
        match readColon c with
        | .error fault => ([], .atColon label fault, none)
        | .ok c =>
          match readValue fuel depth c with
          | (value, none) => ([(label, value)], .closed 0, none)
          | (value, some c) =>
            let (members, finish, next) := readMembers fuel depth false c
            ((label, value) :: members, finish, next)

end

/-- Reads one value below `depth` open brackets.  Two steps per character are
enough. -/
def readNode (depth : Nat) (c : Cursor) : Node × Option Cursor :=
  readValue (2 * c.rest.length + 2) depth c

namespace Node

mutual

/-- The first fault of a node, in the order of the text. -/
def fault? : Node → Option Fault
  | .scalar _ _ => none
  | .array _ items finish => itemsFault? items <|> finish.fault?
  | .object _ members finish => membersFault? members <|> finish.fault?
  | .broken fault => some fault

def itemsFault? : List Node → Option Fault
  | [] => none
  | item :: rest => item.fault? <|> itemsFault? rest

def membersFault? : List (Label × Node) → Option Fault
  | [] => none
  | (_, value) :: rest => value.fault? <|> membersFault? rest

end

end Node

/-- Reads a text that is one value and blanks. -/
def parse (text : String) : Except Fault Json :=
  match readNode nestingLimit (Cursor.ofString text) with
  | (node, some c) =>
    match node.fault? with
    | some fault => .error fault
    | none =>
      let c := c.skipBlanks
      if c.rest.isEmpty then .ok node.toJson else .error (c.faultAhead .trailingCharacters)
  | (node, none) => .error (node.fault?.getD ⟨.endInValue, 0⟩)

end ApiTypes.Json
