import ApiTypes.Filter.Term
import ApiTypes.Filter.Token

/-!
# Reading terms

The grammar of the filter language.  An atom with its path binds closest, a pipe
loosest; connectives of one level group to the left, except for pipes and
assignments.
-/

namespace ApiTypes.Filter

/-! ### Connectives -/

/-- What stands between two operands. -/
inductive Connective where
  | pipe
  /-- A pipe that binds a variable; `scope` completes the right operand. -/
  | bind (name : String) (scope : Term → Term)
  | comma
  | assign
  | update
  | updateWith (op : Operation)
  | updateAlternative
  | alternative
  | or
  | and
  | compare (op : Comparison)
  | combine (op : Operation)

namespace Connective

def ofSymbol? : String → Option Connective
  | "|" => some .pipe
  | "," => some .comma
  | "=" => some .assign
  | "|=" => some .update
  | "+=" => some (.updateWith .add)
  | "-=" => some (.updateWith .subtract)
  | "*=" => some (.updateWith .multiply)
  | "/=" => some (.updateWith .divide)
  | "%=" => some (.updateWith .remainder)
  | "//=" => some .updateAlternative
  | "//" => some .alternative
  | "==" => some (.compare .equal)
  | "!=" => some (.compare .unequal)
  | "<" => some (.compare .less)
  | "<=" => some (.compare .lessOrEqual)
  | ">" => some (.compare .greater)
  | ">=" => some (.compare .greaterOrEqual)
  | "+" => some (.combine .add)
  | "-" => some (.combine .subtract)
  | "*" => some (.combine .multiply)
  | "/" => some (.combine .divide)
  | "%" => some (.combine .remainder)
  | _ => none

/-- The level of a connective; a higher one binds closer. -/
def level : Connective → Nat
  | .pipe | .bind _ _ => 0
  | .comma => 1
  | .assign | .update | .updateWith _ | .updateAlternative => 2
  | .alternative => 3
  | .or => 4
  | .and => 5
  | .compare .equal | .compare .unequal => 6
  | .compare _ => 7
  | .combine .add | .combine .subtract => 8
  | .combine .multiply | .combine .divide => 9
  | .combine .remainder => 10

def groupsRight : Connective → Bool
  | .pipe | .bind _ _ | .assign | .update | .updateWith _ | .updateAlternative => true
  | _ => false

/-- Two operands with the connective between them. -/
def join : Connective → Term → Term → Term
  | .pipe, a, b => .pipe a b
  | .bind name scope, a, b => .bind a name (scope b)
  | .comma, a, b => .comma a b
  | .assign, a, b => .assign a b
  | .update, a, b => .update a b
  | .updateWith op, a, b => .updateWith op a b
  | .updateAlternative, a, b => .updateAlternative a b
  | .alternative, a, b => .alternative a b
  | .or, a, b => .or a b
  | .and, a, b => .and a b
  | .compare op, a, b => .compare op a b
  | .combine op, a, b => .combine op a b

/-- Groups operands from `left` on as long as the connectives have the level
`least`; the others remain. -/
def group : Nat → (left : Term) → List (Connective × Term) → (least : Nat) →
    Term × List (Connective × Term)
  | 0, left, tail, _ => (left, tail)
  | _ + 1, left, [], _ => (left, [])
  | fuel + 1, left, (c, t) :: tail, least =>
    if c.level < least then (left, (c, t) :: tail)
    else
      let (right, tail) := group fuel t tail (if c.groupsRight then c.level else c.level + 1)
      group fuel (c.join left right) tail least

def groupAll (head : Term) (tail : List (Connective × Term)) : Term :=
  (group (tail.length + 1) head tail 0).1

end Connective

/-! ### Composed terms -/

namespace Term

def text (s : String) : Term := .literal (.string s)

/-- The member of the input under a key. -/
def field (key : Term) : Term := .path .identity [.at key false]

/-- The input, its parts, their parts and so on. -/
def descendants : Term :=
  .define ".." []
    (.comma .identity (.pipe (.path .identity [.each true]) (.call ".." []))) (.call ".." [])

def sum : List Term → Term
  | [] => .literal (.object [])
  | t :: rest => rest.foldl (.combine .add) t

end Term

/-! ### The grammar -/

/-- A step of reading, which finds the tokens malformed or leaves some. -/
abbrev Read (α : Type) := StateT (List Token) Option α

namespace Read

variable {α : Type}

def refuse : Read α := fun _ => none

def peek : Read (Option Token) := fun ts => some (ts.head?, ts)

def skip : Read Unit := modify (·.drop 1)

def next : Read Token := fun
  | t :: ts => some (t, ts)
  | [] => none

def skipSymbol (s : String) : Read Bool := fun
  | .symbol r :: ts => some (if r = s then (true, ts) else (false, .symbol r :: ts))
  | ts => some (false, ts)

def skipWord (s : String) : Read Bool := fun
  | .word r :: ts => some (if r = s then (true, ts) else (false, .word r :: ts))
  | ts => some (false, ts)

/-- Passes this symbol, which must be next. -/
def symbol (s : String) : Read Unit := do if ← skipSymbol s then pure () else refuse

/-- Passes this word, which must be next. -/
def word (s : String) : Read Unit := do if ← skipWord s then pure () else refuse

/-- Passes a variable, which must be next. -/
def variableName : Read String := do
  match ← next with
  | .variable name => pure name
  | _ => refuse

/-- Reads all of the tokens between two brackets. -/
def inside (inner : List Token) (p : Read α) : Read α := fun ts =>
  match p inner with
  | some (a, []) => some (a, ts)
  | _ => none

/-- The words that are no names of filters. -/
def reserved : List String :=
  ["def", "if", "then", "elif", "else", "end", "or", "and", "as", "reduce", "foreach", "try",
   "catch", "label", "import", "include", "__loc__"]

def optional : Nat → Read Bool
  | 0 => pure false
  | fuel + 1 => do
    if ← skipSymbol "?" then
      let _ ← optional fuel
      pure true
    else pure false

/-- What precedes the body of a destructuring: the name the thing itself has, and
how the body comes to know its parts. -/
abbrev Destructuring := String × (Term → Term)

/-- The name for what is taken apart at this depth; no variable is written so. -/
def hidden (depth : Nat) : String := toString depth

/-- Binds the part under a key of what is taken apart. -/
def bindPart (depth : Nat) (key : Term) (part : Destructuring) (body : Term) : Term :=
  .bind (.path (.variable (hidden depth)) [.at key false]) part.1 (part.2 body)

mutual

/-- Reads a term; without `commas` it ends at one. -/
def term : Nat → (commas : Bool) → Read Term
  | 0, _ => refuse
  | fuel + 1, commas => do
    let head ← atom fuel
    let rest ← tail fuel commas
    pure (Connective.groupAll head rest)

/-- Reads connectives with their right operands. -/
def tail : Nat → Bool → Read (List (Connective × Term))
  | 0, _ => refuse
  | fuel + 1, commas => do
    match ← connective fuel commas with
    | none => pure []
    | some c =>
      let t ← atom fuel
      let rest ← tail fuel commas
      pure ((c, t) :: rest)

def connective : Nat → Bool → Read (Option Connective)
  | 0, _ => refuse
  | fuel + 1, commas => do
    match ← peek with
    | some (.word "as") =>
      skip
      let (name, scope) ← destructuring fuel 0
      symbol "|"
      pure (some (.bind name scope))
    | some (.word "or") =>
      skip
      pure (some .or)
    | some (.word "and") =>
      skip
      pure (some .and)
    | some (.symbol s) =>
      match Connective.ofSymbol? s with
      | some c =>
        if s = "," && !commas then pure none
        else
          skip
          pure (some c)
      | none => pure none
    | _ => pure none

def atom : Nat → Read Term
  | 0 => refuse
  | fuel + 1 => do
    match ← get with
    | .symbol "." :: .text _ :: _ | .field _ :: _ => suffixes fuel .identity
    | _ =>
      match ← next with
      | .symbol "." => suffixes fuel .identity
      | .symbol ".." => suffixes fuel .descendants
      | .symbol "-" => Term.negate <$> atom fuel
      | .variable name => suffixes fuel (.variable name)
      | .number digits =>
        let v : Value := match digits.toNat? with
          | some n => if fitsWord n then .integer n else .decimal digits
          | none => .decimal digits
        suffixes fuel (.literal v)
      | .text pieces =>
        let t ← text fuel .plainText pieces
        suffixes fuel t
      | .format name =>
        let apply := Term.call ("@" ++ name) []
        match ← peek with
        | some (.text pieces) =>
          skip
          let t ← text fuel apply pieces
          suffixes fuel t
        | _ => suffixes fuel apply
      | .block '(' inner =>
        let t ← inside inner (term fuel true)
        suffixes fuel t
      | .block '[' inner =>
        if inner.isEmpty then suffixes fuel (.literal (.array []))
        else
          let t ← inside inner (term fuel true)
          suffixes fuel (.collect t)
      | .block _ inner =>
        let members ← if inner.isEmpty then pure [] else inside inner (members fuel)
        suffixes fuel (Term.sum members)
      | .word name =>
        match name with
        | "def" => definition fuel
        | "if" =>
          let t ← conditional fuel
          suffixes fuel t
        | "try" =>
          let t ← atom fuel
          if ← skipWord "catch" then
            let handler ← atom fuel
            suffixes fuel (.attempt t handler)
          else suffixes fuel (.attempt t .nothing)
        | "label" =>
          let name ← variableName
          symbol "|"
          Term.label name <$> term fuel true
        | "break" =>
          let name ← variableName
          suffixes fuel (.leave name)
        | "reduce" | "foreach" =>
          let source ← atom fuel
          word "as"
          let (var, scope) ← destructuring fuel 0
          let args ← arguments fuel
          suffixes fuel <| match name, args with
            | "reduce", [start, change] => .reduce source var start (scope change)
            | "foreach", [start, change] => .foreach source var start (scope change) .identity
            | "foreach", [start, change, view] =>
              .foreach source var start (scope change) (scope view)
            | _, _ => .illFormed
        | _ =>
          if reserved.contains name then refuse
          else
            let args ← arguments fuel
            suffixes fuel (.call name args)
      | _ => refuse

/-- Reads the path behind an atom. -/
def suffixes : Nat → Term → Read Term
  | 0, _ => refuse
  | fuel + 1, t => do
    let forgiven ← optional (fuel + 1)
    let t := if forgiven then .attempt t .nothing else t
    let path ← steps fuel
    pure (if path.isEmpty then t else .path t path)

def steps : Nat → Read (List PathStep)
  | 0 => refuse
  | fuel + 1 => do
    match ← get with
    | .field name :: _ =>
      skip
      let forgiven ← optional (fuel + 1)
      let rest ← steps fuel
      pure (.at (.text name) forgiven :: rest)
    | .symbol "." :: .text pieces :: _ =>
      skip
      skip
      let key ← text fuel .plainText pieces
      let forgiven ← optional (fuel + 1)
      let rest ← steps fuel
      pure (.at key forgiven :: rest)
    | .symbol "." :: .block '[' inner :: _ =>
      skip
      skip
      bracket fuel inner
    | .block '[' inner :: _ =>
      skip
      bracket fuel inner
    | _ => pure []

/-- Reads a step in brackets, and the further ones. -/
def bracket : Nat → List Token → Read (List PathStep)
  | 0, _ => refuse
  | fuel + 1, inner => do
    let step : Bool → PathStep ←
      (match inner with
      | [] => pure .each
      | .symbol ":" :: rest => (do
        let high ← inside rest (term fuel true)
        pure (.sliceTo high))
      | _ => inside inner (do
        let low ← term fuel true
        if ← skipSymbol ":" then
          match ← peek with
          | none => pure (.sliceFrom low)
          | some _ =>
            let high ← term fuel true
            pure (.slice low high)
        else pure (.at low)))
    let forgiven ← optional (fuel + 1)
    let rest ← steps fuel
    pure (step forgiven :: rest)

/-- Reads the pieces of a string; `apply` makes text of the values put in. -/
def text : Nat → (apply : Term) → List Piece → Read Term
  | 0, _, _ => refuse
  | fuel + 1, apply, pieces => do
    let terms ← texts fuel apply pieces
    pure (Term.sum terms)

def texts : Nat → (apply : Term) → List Piece → Read (List Term)
  | 0, _, _ => refuse
  | _ + 1, _, [] => pure []
  | fuel + 1, apply, .plain s :: rest => do
    let terms ← texts fuel apply rest
    pure (.text s :: terms)
  | fuel + 1, apply, .value inner :: rest => do
    let t ← inside inner (term fuel true)
    let terms ← texts fuel apply rest
    pure (.pipe t apply :: terms)

def members : Nat → Read (List Term)
  | 0 => refuse
  | fuel + 1 => do
    let m ← member fuel
    if ← skipSymbol "," then
      let rest ← members fuel
      pure (m :: rest)
    else pure [m]

def member : Nat → Read Term
  | 0 => refuse
  | fuel + 1 => do
    match ← next with
    | .variable name =>
      if ← skipSymbol ":" then Term.member (.variable name) <$> term fuel false
      else pure (.member (.text name) (.variable name))
    | .word name => named fuel (.text name)
    | .text pieces =>
      let key ← text fuel .plainText pieces
      named fuel key
    | .format name =>
      match ← next with
      | .text pieces =>
        let key ← text fuel (.call ("@" ++ name) []) pieces
        named fuel key
      | _ => refuse
    | .block '(' inner =>
      let key ← inside inner (term fuel true)
      symbol ":"
      Term.member key <$> term fuel false
    | _ => refuse

/-- Reads the value of a member; without one it is the input's value under the
same key. -/
def named : Nat → Term → Read Term
  | 0, _ => refuse
  | fuel + 1, key => do
    if ← skipSymbol ":" then Term.member key <$> term fuel false
    else pure (.member key (.field key))

def arguments : Nat → Read (List Term)
  | 0 => refuse
  | fuel + 1 => do
    match ← peek with
    | some (.block '(' inner) =>
      skip
      inside inner (terms fuel)
    | _ => pure []

def terms : Nat → Read (List Term)
  | 0 => refuse
  | fuel + 1 => do
    let t ← term fuel true
    if ← skipSymbol ";" then
      let rest ← terms fuel
      pure (t :: rest)
    else pure [t]

/-- Reads a condition and its branches, from behind the word `if` or `elif`. -/
def conditional : Nat → Read Term
  | 0 => refuse
  | fuel + 1 => do
    let condition ← term fuel true
    word "then"
    let yes ← term fuel true
    match ← next with
    | .word "elif" => Term.choose condition yes <$> conditional fuel
    | .word "else" =>
      let no ← term fuel true
      word "end"
      pure (.choose condition yes no)
    | .word "end" => pure (.choose condition yes .identity)
    | _ => refuse

/-- Reads a definition and the term it is made for, from behind the word `def`. -/
def definition : Nat → Read Term
  | 0 => refuse
  | fuel + 1 => do
    match ← next with
    | .word name =>
      if reserved.contains name then refuse
      else
        let parameters ← (do
          match ← peek with
          | some (.block '(' inner) =>
            skip
            inside inner (parameters fuel)
          | _ => pure [])
        symbol ":"
        let body ← term fuel true
        symbol ";"
        Term.define name parameters body <$> term fuel true
    | _ => refuse

def parameters : Nat → Read (List Parameter)
  | 0 => refuse
  | fuel + 1 => do
    let p : Parameter ← (do
      match ← next with
      | .word name => if reserved.contains name then refuse else pure (.filter name)
      | .variable name => pure (.value name)
      | _ => refuse)
    if ← skipSymbol ";" then
      let rest ← parameters fuel
      pure (p :: rest)
    else pure [p]

/-- Reads what binds variables to a thing or to parts of it. -/
def destructuring : Nat → (depth : Nat) → Read Destructuring
  | 0, _ => refuse
  | fuel + 1, depth => do
    match ← next with
    | .variable name => pure (name, id)
    | .block '[' inner =>
      let scope ← inside inner (itemBindings fuel depth 0)
      pure (hidden depth, scope)
    | .block '\x7b' inner =>
      let scope ← inside inner (memberBindings fuel depth)
      pure (hidden depth, scope)
    | _ => refuse

def itemBindings : Nat → (depth i : Nat) → Read (Term → Term)
  | 0, _, _ => refuse
  | fuel + 1, depth, i => do
    let part ← destructuring fuel (depth + 1)
    let bind := bindPart depth (.literal (.integer i)) part
    if ← skipSymbol "," then
      let rest ← itemBindings fuel depth (i + 1)
      pure (bind ∘ rest)
    else pure bind

def memberBindings : Nat → (depth : Nat) → Read (Term → Term)
  | 0, _ => refuse
  | fuel + 1, depth => do
    let bind ← memberBinding fuel depth
    if ← skipSymbol "," then
      let rest ← memberBindings fuel depth
      pure (bind ∘ rest)
    else pure bind

def memberBinding : Nat → (depth : Nat) → Read (Term → Term)
  | 0, _ => refuse
  | fuel + 1, depth => do
    let key : Term ← (do
      match ← next with
      | .variable name => pure (.variable name)
      | .word name => pure (.text name)
      | .text pieces => text fuel .plainText pieces
      | .block '(' inner => inside inner (term fuel true)
      | _ => refuse)
    match key with
    | .variable name =>
      let whole := bindPart depth (.text name) (name, id)
      if ← skipSymbol ":" then
        let part ← destructuring fuel (depth + 1)
        pure (whole ∘ bindPart depth (.text name) part)
      else pure whole
    | key =>
      symbol ":"
      let part ← destructuring fuel (depth + 1)
      pure (bindPart depth key part)

end

end Read

/-- The term that a text holds; nothing if it is not well formed. -/
def Term.ofText? (source : String) : Option Term :=
  match Token.ofText? source with
  | none => none
  | some tokens =>
    match Read.term (8 * (Token.sizeAll tokens + 1)) true tokens with
    | some (t, []) => some t
    | _ => none

end ApiTypes.Filter
