import ApiTypes.CommandLine.Run
import ApiTypes.Files.Tree

/-!
# Command lines in a closed world

A world is all that a command line can see and change: a tree of files, the
input, and what has been written for the user.
-/

namespace ApiTypes.CommandLine

structure World where
  files : FileTree
  /-- The input that has not been read yet. -/
  input : Bytes
  output : String := ""
  diagnostics : String := ""
deriving DecidableEq

instance : Host (StateM World) where
  readFile path := do pure ((← get).files.readText path)
  readInput := do
    let w ← get
    set { w with input := [] }
    pure (FileTree.decode w.input)
  createDirectories path := modifyGet fun w =>
    let (result, files) := w.files.createDirectories path
    (result, { w with files })
  writeFile path text := modifyGet fun w =>
    match w.files.write path (FileTree.encode text) with
    | .ok files => (.ok (), { w with files })
    | .error fault => (.error fault, w)
  printOutput text := modify fun w => { w with output := w.output ++ text }
  printDiagnostic text := modify fun w => { w with diagnostics := w.diagnostics ++ text }

/-- What a command line makes of a world, and how it ends. -/
def runIn (arguments : List String) (world : World) : Except RunError Unit × World :=
  Id.run (StateT.run (run (m := StateM World) arguments).run world)

end ApiTypes.CommandLine
