import ApiTypes.CommandLine.Display
import ApiTypes.Document
import ApiTypes.Files.Fault
import ApiTypes.Files.Path
import ApiTypes.Filter
import ApiTypes.Patch
import ApiTypes.Source

/-!
# Running commands

A command loads its document, patches and filters it, generates the module and
writes it.  The first stage that fails ends the run; nothing is written before
the module is there.  A `Host` is what a command sees of the system.
-/

namespace ApiTypes.CommandLine

/-- What commands need of a system. -/
class Host (m : Type → Type) where
  /-- The text of a file. -/
  readFile : (path : String) → m (Except FileFault String)
  /-- The text of the input that has not been read yet. -/
  readInput : m (Except FileFault String)
  /-- Makes a directory and the missing ones above it. -/
  createDirectories : (path : String) → m (Except FileFault Unit)
  writeFile : (path text : String) → m (Except FileFault Unit)
  /-- Writes text for the user. -/
  printOutput : (text : String) → m Unit
  /-- Writes text beside the output. -/
  printDiagnostic : (text : String) → m Unit

/-! ### Errors -/

/-- Why a document cannot be loaded. -/
inductive LoadError where
  | input (fault : FileFault)
  | file (path : String) (fault : FileFault)
  /-- Documents are not fetched from other hosts. -/
  | address (url : String)
  | text (error : Source.ParseError)
deriving DecidableEq, Repr

/-- Why a run fails. -/
inductive RunError where
  | usage (error : UsageError)
  | load (error : LoadError)
  | patch (source : String) (error : LoadError)
  | filter (input : String) (error : FilterError)
  | generation (input : String) (error : GenerationError)
  | directory (path : String) (fault : FileFault)
  | output (path : String) (fault : FileFault)
deriving DecidableEq, Repr

/-- A context, and behind a colon what it says of the cause. -/
def inContext (context message : String) : String :=
  if message = "" then context else context ++ ": " ++ message

def LoadError.message : LoadError → String
  | .input fault => inContext "failed to read document from stdin" fault.name
  | .file path fault => inContext ("failed to read " ++ path) fault.name
  | .address url => "failed to fetch " ++ url
  | .text error => error.message

def RunError.message : RunError → String
  | .usage error => error.message
  | .load error => error.message
  | .patch source error => inContext ("failed to load patch document " ++ source) error.message
  | .filter input error => inContext ("failed to apply jq expression to " ++ input) error.message
  | .generation input error => inContext ("failed to generate types from " ++ input) error.message
  | .directory path fault => inContext ("failed to create " ++ path) fault.name
  | .output path fault => inContext ("failed to write " ++ path) fault.name

/-! ### Stages -/

def isAddress (source : String) : Bool :=
  "http://".toList.isPrefixOf source.toList || "https://".toList.isPrefixOf source.toList

section
variable {m : Type → Type} [Monad m] [Host m]

/-- The text of a source: a single hyphen stands for the input. -/
def readSource (source : String) : ExceptT LoadError m String := do
  if source = "-" then
    match ← (Host.readInput : m _) with
    | .ok text => pure text
    | .error fault => throw (.input fault)
  else if isAddress source then throw (.address source)
  else
    match ← (Host.readFile source : m _) with
    | .ok text => pure text
    | .error fault => throw (.file source fault)

def loadDocument (source : String) : ExceptT LoadError m Json := do
  let text ← readSource source
  match Source.parse source text with
  | .ok document => pure document
  | .error e => throw (.text e)

def Settings.load (s : Settings) : ExceptT RunError m Json := do
  let document ← (loadDocument s.input).adapt RunError.load
  let document ← match s.patch with
    | none => pure document
    | some source =>
      let patch ← (loadDocument source).adapt (RunError.patch source)
      pure (Patch.merge document patch)
  match s.filter with
  | none => pure document
  | some filter =>
    match Filter.apply filter document with
    | .ok document => pure document
    | .error e => throw (.filter s.input e)

/-- Writes a module to its file, or for the user. -/
def writeModule (out : Option String) (text : String) : ExceptT RunError m Unit := do
  match out with
  | none => (Host.printOutput (text ++ "\n") : m _)
  | some path =>
    match Path.parent? path.toList with
    | none => pure ()
    | some parent =>
      let parent := String.ofList parent
      match ← (Host.createDirectories parent : m _) with
      | .ok () => pure ()
      | .error fault => throw (.directory parent fault)
    match ← (Host.writeFile path text : m _) with
    | .ok () => pure ()
    | .error fault => throw (.output path fault)

def Command.run (c : Command) : ExceptT RunError m Unit := do
  let s := c.settings
  if s.noOp then (Host.printDiagnostic (c.display ++ "\n") : m _)
  else
    let document ← s.load
    match Document.generate ⟨c.outputType, s.exitOnInvalidType⟩ document with
    | .ok text => writeModule s.out text
    | .error e => throw (.generation s.input e)

/-- Carries a command line out. -/
def run (arguments : List String) : ExceptT RunError m Unit := do
  match read arguments with
  | .ok command => command.run
  | .error e => throw (.usage e)

end

end ApiTypes.CommandLine
