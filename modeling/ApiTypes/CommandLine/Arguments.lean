import ApiTypes.OutputType

/-!
# Arguments of the command line

A command line is a command, which names the output type, and its arguments: options
with a value, each at most once, and switches.  The first fault in the order in
which arguments take effect is reported.  An option's value takes effect when the
next known argument stands behind it or the line ends, everything else at once.
-/

namespace ApiTypes.CommandLine

/-- The arguments of a command. -/
structure Settings where
  /-- The source of the document. -/
  input : String
  /-- The source of a patch for it. -/
  patch : Option String := none
  /-- A filter for the patched document. -/
  filter : Option String := none
  exitOnInvalidType : Bool := false
  /-- The path of the file to be written. -/
  out : Option String := none
  /-- Whether the command is only shown. -/
  noOp : Bool := false
deriving DecidableEq, Repr

/-- A command with its arguments. -/
structure Command where
  outputType : OutputType
  settings : Settings
deriving DecidableEq, Repr

/-- Why arguments make no command. -/
inductive UsageError where
  /-- There are no arguments at all. -/
  | nothingGiven
  /-- Help is asked for. -/
  | helpWanted
  /-- The version is asked for. -/
  | versionWanted
  | unknownCommand (name : String)
  | unknownArgument (name : String)
  | missingArgument (name : String)
  /-- An option without a value, or with one it does not take. -/
  | invalidValue (name : String)
  /-- An argument that may stand once stands twice. -/
  | repeatedArgument (name : String)
  /-- A switch with a value. -/
  | unexpectedValue (name : String)
deriving DecidableEq, Repr

def UsageError.message : UsageError → String
  | nothingGiven => "a command is missing"
  | helpWanted => "help is wanted"
  | versionWanted => "the version is wanted"
  | unknownCommand name => "unknown command " ++ name
  | unknownArgument name => "unknown argument " ++ name
  | missingArgument name => "missing argument " ++ name
  | invalidValue name => "missing or invalid value of " ++ name
  | repeatedArgument name => "repeated argument " ++ name
  | unexpectedValue name => "unexpected value of " ++ name

/-! ### Known arguments -/

/-- An option with a value. -/
inductive Field where
  | input
  | patch
  | filter
  | out
deriving DecidableEq, Repr

/-- A switch. -/
inductive Switch where
  | exitOnInvalidType
  | noOp
deriving DecidableEq, Repr

/-- What a name of an argument stands for. -/
inductive Known where
  | field (f : Field)
  | switch (s : Switch)
  | help
deriving DecidableEq, Repr

def Field.name : Field → String
  | input => "input"
  | patch => "patch"
  | filter => "jq-expr"
  | out => "out"

def Switch.name : Switch → String
  | exitOnInvalidType => "exit-on-invalid-type"
  | noOp => "no-op"

/-- The argument behind two hyphens. -/
def Known.ofName? (name : String) : Option Known :=
  if name = "help" then some .help
  else
    match [Field.input, .patch, .filter, .out].find? fun f => f.name == name with
    | some f => some (.field f)
    | none =>
      ([Switch.exitOnInvalidType, .noOp].find? fun s => s.name == name).map .switch

/-- The argument behind one hyphen. -/
def Known.ofLetter? : Char → Option Known
  | 'i' => some (.field .input)
  | 'o' => some (.field .out)
  | 'h' => some .help
  | _ => none

/-! ### Words -/

/-- What a word of the command line looks like. -/
inductive Word where
  /-- Two hyphens alone. -/
  | separator
  /-- A name behind two hyphens, and the value behind an equals sign. -/
  | long (name : String) (value : Option String)
  /-- Letters behind one hyphen. -/
  | short (letters : List Char)
  | plain (text : String)
deriving DecidableEq, Repr

def Word.ofString (word : String) : Word :=
  match word.toList with
  | ['-', '-'] => .separator
  | '-' :: '-' :: rest =>
    let name := String.ofList (rest.takeWhile (· ≠ '='))
    match rest.dropWhile (· ≠ '=') with
    | _ :: value => .long name (some (String.ofList value))
    | [] => .long name none
  | ['-'] => .plain word
  | '-' :: letters => .short letters
  | _ => .plain word

/-! ### Arguments of a command -/

/-- The arguments that have taken effect, and the option that waits to. -/
structure Given where
  fields : List (Field × String) := []
  switches : List Switch := []
  /-- The last option, with its value if that has been read. -/
  waiting : Option (Field × Option String) := none

namespace Given

/-- Lets an option take effect. -/
def setField (g : Given) (f : Field) (value : String) : Except UsageError Given :=
  if (g.fields.lookup f).isSome then .error (.repeatedArgument f.name)
  else if f = .out ∧ value = "" then .error (.invalidValue f.name)
  else .ok { g with fields := (f, value) :: g.fields }

/-- Lets the waiting option take effect. -/
def settle (g : Given) : Except UsageError Given :=
  match g.waiting with
  | none => .ok g
  | some (f, none) => .error (.invalidValue f.name)
  | some (f, some value) => { g with waiting := none }.setField f value

/-- Lets a switch take effect. -/
def setSwitch (g : Given) (s : Switch) : Except UsageError Given := do
  let g ← g.settle
  if s ∈ g.switches then throw (.repeatedArgument s.name)
  else pure { g with switches := s :: g.switches }

/-- An option, with the value that is attached to it. -/
def meetField (g : Given) (f : Field) : Option String → Except UsageError Given
  | some value => do
    let g ← g.settle
    g.setField f value
  | none => do
    let g ← g.settle
    pure { g with waiting := some (f, none) }

def meetHelp (g : Given) : Except UsageError Given := do
  let _ ← g.settle
  throw .helpWanted

/-- A name behind two hyphens. -/
def meetLong (g : Given) (name : String) (value : Option String) : Except UsageError Given :=
  match Known.ofName? name, value with
  | none, _ => .error (.unknownArgument name)
  | some (.field f), value => g.meetField f value
  | some _, some _ => .error (.unexpectedValue name)
  | some (.switch s), none => g.setSwitch s
  | some .help, none => g.meetHelp

/-- Letters behind one hyphen: the first that takes a value takes all that follow,
an equals sign between them excepted. -/
def meetShort (g : Given) : List Char → Except UsageError Given
  | [] => .ok g
  | c :: rest =>
    match Known.ofLetter? c with
    | none => .error (.unknownArgument (String.singleton c))
    | some (.field f) =>
      match rest with
      | [] => g.meetField f none
      | '=' :: value => g.meetField f (some (String.ofList value))
      | value => g.meetField f (some (String.ofList value))
    | some (.switch s) => do
      let g ← g.setSwitch s
      g.meetShort rest
    | some .help => g.meetHelp

/-- The arguments from the words of a command line. -/
def read (g : Given) : List String → Except UsageError Given
  | [] => g.settle
  | word :: rest =>
    match Word.ofString word with
    | .separator =>
      match rest with
      | [] => g.settle
      | next :: _ => .error (.unknownArgument next)
    | .long name value => do
      let g ← g.meetLong name value
      g.read rest
    | .short letters => do
      let g ← g.meetShort letters
      g.read rest
    | .plain text =>
      match g.waiting with
      | some (f, none) => { g with waiting := some (f, some text) }.read rest
      | _ => .error (.unknownArgument text)

def settings (g : Given) : Except UsageError Settings :=
  match g.fields.lookup .input with
  | none => .error (.missingArgument Field.input.name)
  | some input =>
    .ok {
      input
      patch := g.fields.lookup .patch
      filter := g.fields.lookup .filter
      exitOnInvalidType := .exitOnInvalidType ∈ g.switches
      out := g.fields.lookup .out
      noOp := .noOp ∈ g.switches }

end Given

/-! ### Commands -/

def commandType? (name : String) : Option OutputType :=
  OutputType.all.find? fun t => t.name == name

/-- Whether a word is a command, the one for help included. -/
def isCommand (name : String) : Bool := name == "help" || (commandType? name).isSome

def helpOn : List String → UsageError
  | [] => .helpWanted
  | [name] => if isCommand name then .helpWanted else .unknownCommand name
  | name :: next :: _ => .unknownCommand (if isCommand name then next else name)

def read : List String → Except UsageError Command
  | [] => .error .nothingGiven
  | word :: rest =>
    match Word.ofString word with
    | .separator =>
      match rest with
      | [] => .error .nothingGiven
      | name :: _ =>
        .error (if isCommand name then .unknownArgument name else .unknownCommand name)
    | .long name value =>
      if name = "help" ∨ name = "version" then
        if value.isSome then .error (.unexpectedValue name)
        else .error (if name = "help" then .helpWanted else .versionWanted)
      else .error (.unknownArgument name)
    | .short letters =>
      match letters.head? with
      | some 'h' => .error .helpWanted
      | some 'V' => .error .versionWanted
      | _ => .error (.unknownArgument (String.ofList letters))
    | .plain name =>
      match commandType? name with
      | some outputType => do
        let given ← Given.read {} rest
        let settings ← given.settings
        pure ⟨outputType, settings⟩
      | none => .error (if name = "help" then helpOn rest else .unknownCommand name)

end ApiTypes.CommandLine
