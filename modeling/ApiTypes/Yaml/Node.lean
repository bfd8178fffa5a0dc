import ApiTypes.Yaml.Token

/-!
# From YAML tokens to a tree

The tokens of one document become a tree in which an alias has been replaced by
the node it names.  An anchor that is given again names its latest node, and an
alias to a node that is not finished is refused, as is a document in which
aliases would be followed too often.
-/

namespace ApiTypes.Yaml

/-- A node of a document.  A tag has its handle resolved. -/
inductive Node where
  /-- `plain` says that the text stood without quotes. -/
  | scalar (tag : Option String) (plain : Bool) (text : String)
  | sequence (tag : Option String) (items : List Node)
  | mapping (tag : Option String) (pairs : List (Node × Node))
deriving Inhabited

/-- A name given to a node, the node once it is finished, and how many aliases
are followed inside it. -/
structure Anchor where
  name : String
  target : Option (Node × Nat) := none

/-- The state of reading a document. -/
structure Reading where
  tokens : List Token
  /-- The anchors in the order in which they were given. -/
  anchors : Array Anchor := #[]
  /-- The tag handles of the document and what they stand for. -/
  handles : List (String × String) := []
  /-- How many aliases are followed so far. -/
  jumps : Nat := 0
  /-- How many nodes and ends of nodes were met. -/
  events : Nat := 0

/-- A step of reading, which may find the document malformed. -/
abbrev Read (α : Type) := StateT Reading Option α

namespace Read

def refuse {α : Type} : Read α := fun _ => none

def peek : Read Token := fun r => some (r.tokens.headD .streamEnd, r)

def skip : Read Unit := modify fun r => { r with tokens := r.tokens.drop 1 }

/-- Passes the next token if it is `t`. -/
def skipIf (t : Token) : Read Bool := do
  if (← peek) = t then
    skip
    pure true
  else pure false

def count (n : Nat) : Read Unit := modify fun r => { r with events := r.events + n }

/-- The tag of a scalar that is written; a mark without a name says nothing. -/
def scalarTag (tag : Option String) : Option String :=
  if tag = some "!" then none else tag

def empty : Read Node := do
  count 1
  pure (.scalar none true "")

def resolveTag (handle rest : String) : Read String := do
  if handle.isEmpty then pure rest
  else
    match (← get).handles.lookup handle with
    | some value => pure (value ++ rest)
    | none =>
      match handle with
      | "!" => pure ("!" ++ rest)
      | "!!" => pure ("tag:yaml.org,2002:" ++ rest)
      | _ => refuse

/-- Reads an anchor and a tag, in either order. -/
def properties : Read (Option String × Option String) := do
  match ← peek with
  | .anchor name =>
    skip
    match ← peek with
    | .tag handle rest =>
      skip
      pure (some name, some (← resolveTag handle rest))
    | _ => pure (some name, none)
  | .tag handle rest =>
    skip
    match ← peek with
    | .anchor name =>
      skip
      pure (some name, some (← resolveTag handle rest))
    | _ => pure (none, some (← resolveTag handle rest))
  | _ => pure (none, none)

def follow (name : String) : Read Node := do
  match (← get).anchors.toList.reverse.find? (fun a => a.name == name) with
  | some ⟨_, some (node, inside)⟩ =>
    modify fun r => { r with jumps := r.jumps + 1 + inside, events := r.events + 1 }
    pure node
  | _ => refuse

def named (anchor : Option String) (content : Read Node) : Read Node := do
  match anchor with
  | none => content
  | some name =>
    let r ← get
    set { r with anchors := r.anchors.push ⟨name, none⟩ }
    let node ← content
    modify fun after =>
      { after with
        anchors := after.anchors.modify r.anchors.size fun a =>
          { a with target := some (node, after.jumps - r.jumps) } }
    pure node

/-- Whether no node stands before `t` in a place where one of `ends` may stand. -/
def endsBefore (ends : List Token) : Read Bool := do
  pure (ends.contains (← peek))

mutual

/-- Reads a node; in block context it may be a block collection, and as a value
of a block mapping also a sequence that is not indented. -/
def node : Nat → Bool → Bool → Read Node
  | 0, _, _ => refuse
  | fuel + 1, block, unindented => do
    match ← peek with
    | .alias name =>
      skip
      follow name
    | _ =>
      let (anchor, tag) ← properties
      named anchor do
        match ← peek with
        | .scalar text plain =>
          skip
          count 1
          pure (.scalar (scalarTag tag) plain text)
        | .flowSequence =>
          skip
          count 2
          pure (.sequence tag (← flowItems fuel true))
        | .flowMapping =>
          skip
          count 2
          pure (.mapping tag (← flowPairs fuel true))
        | .blockEntry =>
          if unindented then
            count 2
            pure (.sequence tag (← unindentedItems fuel))
          else other anchor tag
        | .blockSequence =>
          if block then
            skip
            count 2
            pure (.sequence tag (← blockItems fuel))
          else other anchor tag
        | .blockMapping =>
          if block then
            skip
            count 2
            pure (.mapping tag (← blockPairs fuel))
          else other anchor tag
        | _ => other anchor tag
where
  /-- No content: an empty scalar if a name or a tag stands for it. -/
  other (anchor tag : Option String) : Read Node := do
    if anchor.isSome || tag.isSome then
      count 1
      pure (.scalar tag true "")
    else refuse

/-- Reads a node, or an empty scalar before one of `ends`. -/
def nodeOrEmpty : Nat → Bool → Bool → List Token → Read Node
  | 0, _, _, _ => refuse
  | fuel + 1, block, unindented, ends => do
    if ← endsBefore ends then empty else node fuel block unindented

/-- Reads the entries of an indented sequence and its end. -/
def blockItems : Nat → Read (List Node)
  | 0 => refuse
  | fuel + 1 => do
    match ← peek with
    | .blockEntry =>
      skip
      let item ← nodeOrEmpty fuel true false [.blockEntry, .blockEnd]
      pure (item :: (← blockItems fuel))
    | .blockEnd =>
      skip
      pure []
    | _ => refuse

/-- Reads the entries of a sequence that is not indented. -/
def unindentedItems : Nat → Read (List Node)
  | 0 => refuse
  | fuel + 1 => do
    if ← skipIf .blockEntry then
      let item ← nodeOrEmpty fuel true false [.blockEntry, .key, .value, .blockEnd]
      pure (item :: (← unindentedItems fuel))
    else pure []

def blockPairs : Nat → Read (List (Node × Node))
  | 0 => refuse
  | fuel + 1 => do
    match ← peek with
    | .key =>
      skip
      let key ← nodeOrEmpty fuel true true [.key, .value, .blockEnd]
      let value ← blockValue fuel
      pure ((key, value) :: (← blockPairs fuel))
    | .value =>
      let key ← empty
      let value ← blockValue fuel
      pure ((key, value) :: (← blockPairs fuel))
    | .blockEnd =>
      skip
      pure []
    | _ => refuse

/-- Reads the value of a block mapping's pair. -/
def blockValue : Nat → Read Node
  | 0 => refuse
  | fuel + 1 => do
    if ← skipIf .value then nodeOrEmpty fuel true true [.key, .value, .blockEnd] else empty

/-- Reads the entries between brackets and the closing bracket.  An entry may be
a single pair. -/
def flowItems : Nat → Bool → Read (List Node)
  | 0, _ => refuse
  | fuel + 1, isFirst => do
    if ← skipIf .flowSequenceEnd then pure []
    else
      if !isFirst then
        if !(← skipIf .flowEntry) then refuse
      match ← peek with
      | .flowSequenceEnd =>
        skip
        pure []
      | .key =>
        skip
        count 2
        let key ← pairKey fuel
        let value ← flowValue fuel [.flowEntry, .flowSequenceEnd]
        pure (.mapping none [(key, value)] :: (← flowItems fuel false))
      | _ =>
        let item ← node fuel false false
        pure (item :: (← flowItems fuel false))

/-- Reads the key of a single pair between brackets; where it is missing, the
token in its place is passed. -/
def pairKey : Nat → Read Node
  | 0 => refuse
  | fuel + 1 => do
    if ← endsBefore [.value, .flowEntry, .flowSequenceEnd] then
      skip
      empty
    else node fuel false false

/-- Reads the value of a pair between brackets or braces. -/
def flowValue : Nat → List Token → Read Node
  | 0, _ => refuse
  | fuel + 1, ends => do
    if ← skipIf .value then nodeOrEmpty fuel false false ends else empty

/-- Reads the pairs between braces and the closing brace. -/
def flowPairs : Nat → Bool → Read (List (Node × Node))
  | 0, _ => refuse
  | fuel + 1, isFirst => do
    if ← skipIf .flowMappingEnd then pure []
    else
      if !isFirst then
        if !(← skipIf .flowEntry) then refuse
      match ← peek with
      | .flowMappingEnd =>
        skip
        pure []
      | .key =>
        skip
        let key ← nodeOrEmpty fuel false false [.value, .flowEntry, .flowMappingEnd]
        let value ← flowValue fuel [.flowEntry, .flowMappingEnd]
        pure ((key, value) :: (← flowPairs fuel false))
      | _ =>
        let key ← node fuel false false
        let value ← empty
        pure ((key, value) :: (← flowPairs fuel false))

end

/-- Reads the directives before a document; `versioned` says that its version has
been given. -/
def directives (versioned : Bool) : Nat → Read Unit
  | 0 => refuse
  | fuel + 1 => do
    match ← peek with
    | .version major minor =>
      if !versioned ∧ major = 1 ∧ (minor = 1 ∨ minor = 2) then
        skip
        directives true fuel
      else refuse
    | .handle name value =>
      let r ← get
      if (r.handles.lookup name).isSome then refuse
      else
        set { r with handles := (name, value) :: r.handles }
        skip
        directives versioned fuel
    | _ => pure ()

/-- Reads the root of a document that begins without a marker, or behind it. -/
def root (fuel : Nat) (marked : Bool) : Read Node := do
  match ← peek with
  | .documentStart | .documentEnd | .streamEnd | .version _ _ | .handle _ _ =>
    if marked then empty else refuse
  | _ => node fuel true false

/-- Passes the markers of a document's end. -/
def endMarkers : Nat → Read Unit
  | 0 => pure ()
  | fuel + 1 => do
    if ← skipIf .documentEnd then endMarkers fuel

/-- Reads the only document of a text, or nothing from a text without one. -/
def document (fuel : Nat) : Read (Option Node) := do
  match ← peek with
  | .streamEnd => pure none
  | .documentStart | .version _ _ | .handle _ _ =>
    directives false fuel
    if ← skipIf .documentStart then
      let node ← root fuel true
      finish node
    else refuse
  | _ =>
    let node ← root fuel false
    finish node
where
  /-- Nothing may follow the document. -/
  finish (node : Node) : Read (Option Node) := do
    endMarkers fuel
    let r ← get
    if (← peek) = .streamEnd ∧ r.jumps ≤ 100 * r.events then pure (some node) else refuse

end Read

/-- The tree of the only document among the tokens; nothing inside if there is
no document. -/
def Node.ofTokens? (tokens : List Token) : Option (Option Node) :=
  ((Read.document (4 * tokens.length + 16)).run { tokens }).map (·.1)

end ApiTypes.Yaml
