import ApiTypes.CommandLine.Run

/-!
# The command line

Carries command lines out on the files and streams of the system.
-/

namespace ApiTypes.CommandLine

/-- What an error of the system says about a file. -/
def faultOf : IO.Error → FileFault
  | .noFileOrDirectory .. | .noSuchThing .. => .notFound
  | .alreadyExists .. => .alreadyExists
  | .permissionDenied .. => .permissionDenied
  | .inappropriateType _ 20 _ => .notADirectory
  | .inappropriateType .. => .isADirectory
  | .invalidArgument _ 36 _ => .invalidFilename
  | .invalidArgument .. => .invalidInput
  | _ => .other

def attempt {α : Type} (action : IO α) : IO (Except FileFault α) :=
  tryCatch (Except.ok <$> action) fun e => pure (.error (faultOf e))

def attemptText (action : IO ByteArray) : IO (Except FileFault String) := do
  match ← attempt action with
  | .error fault => pure (.error fault)
  | .ok bytes =>
    match String.fromUTF8? bytes with
    | some text => pure (.ok text)
    | none => pure (.error .invalidData)

instance : Host IO where
  readFile path := attemptText (IO.FS.readBinFile path)
  readInput := attemptText do (← IO.getStdin).readBinToEnd
  createDirectories path := attempt (IO.FS.createDirAll path)
  writeFile path text := attempt (IO.FS.writeFile path text)
  printOutput text := do (← IO.getStdout).putStr text
  printDiagnostic text := do (← IO.getStderr).putStr text

def help : String :=
  "usage: (typescript | flow | codec) --input SOURCE [--patch SOURCE] [--jq-expr FILTER]\n" ++
  "         [--exit-on-invalid-type] [--out PATH] [--no-op]\n"

def version : String := "1\n"

/-- Carries a command line out; 0 stands for success. -/
def status (arguments : List String) : IO UInt32 := do
  match ← (run arguments : ExceptT RunError IO Unit).run with
  | .ok () => pure 0
  | .error (.usage .helpWanted) => (Host.printOutput help : IO Unit); pure 0
  | .error (.usage .versionWanted) => (Host.printOutput version : IO Unit); pure 0
  | .error (.usage e) =>
    (Host.printDiagnostic ("error: " ++ e.message ++ "\n" ++ help) : IO Unit)
    pure 2
  | .error e =>
    (Host.printDiagnostic ("error: " ++ e.message ++ "\n") : IO Unit)
    pure 1

end ApiTypes.CommandLine

def main (arguments : List String) : IO UInt32 := ApiTypes.CommandLine.status arguments
