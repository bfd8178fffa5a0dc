import ApiTypes.Files.Tree
import ApiTypes.Fixture
import ApiTypes.Pattern.Reader

/-!
# Suites of fixtures

The fixtures of a suite are what stands directly in the working directory of a tree
under a name that ends in `.json`, in the order of the names.  A pattern can
select some of them.
-/

namespace ApiTypes.Fixture

/-- Why a suite cannot be run. -/
inductive SuiteError where
  | invalidPattern
  /-- No fixture is selected. -/
  | nothingSelected
deriving DecidableEq, Repr

/-- The text of an error; `directory` is where the suite stands. -/
def SuiteError.message (directory : String) : SuiteError → String
  | .invalidPattern => ""
  | .nothingSelected => "no fixtures matched: " ++ directory ++ "/*.json"

/-- What the system says about a file that cannot be read. -/
def readingFault : FileFault → String
  | .isADirectory => "Is a directory (os error 21)"
  | .invalidData => "stream did not contain valid UTF-8"
  | .notFound => "No such file or directory (os error 2)"
  | .notADirectory => "Not a directory (os error 20)"
  | .permissionDenied => "Permission denied (os error 13)"
  | fault => fault.name

def isFixtureName (name : String) : Bool := ".json".toList.isSuffixOf name.toList

def select (tree : FileTree) (pattern : Option String) : Except SuiteError (List String) := do
  let selects : String → Bool ← match pattern with
    | none => pure fun _ => true
    | some p =>
      match Pattern.read? {} p with
      | some compiled => pure compiled.pattern.isIn
      | none => throw .invalidPattern
  match tree.names.filter fun name => isFixtureName name && selects name with
  | [] => throw .nothingSelected
  | names => pure names

def judgeFile (tree : FileTree) (name : String) : Outcome :=
  match tree.readText name with
  | .ok text => judge text
  | .error fault => .failed ("failed to read fixture: " ++ readingFault fault)

def stem (name : String) : String := String.ofList (Path.splitExtension name.toList).1

/-- The outcomes of the selected fixtures, each under its name. -/
def runSuite (tree : FileTree) (pattern : Option String) :
    Except SuiteError (List (String × Outcome)) :=
  (select tree pattern).map fun names => names.map fun name => (stem name, judgeFile tree name)

end ApiTypes.Fixture
