import ApiTypes.Files.Fault
import ApiTypes.Files.Path

/-!
# File trees

A file tree holds files and directories under the routes that lead to them from
its root.  A relative path is followed from the working directory, an absolute one
from the root, component by component.
-/

namespace ApiTypes

abbrev Bytes := List UInt8

/-- What stands at a route. -/
inductive FileEntry where
  | file (content : Bytes)
  | directory
deriving DecidableEq

/-- The components that lead to an entry from the root. -/
abbrev Route := List String

/-- Files and directories, and the route of the working directory. -/
structure FileTree where
  entries : List (Route × FileEntry)
  base : Route
deriving DecidableEq

namespace FileTree

/-- A working directory in which nothing stands. -/
def empty : FileTree := ⟨[], ["work"]⟩

/-- The entry at a route; the working directory and those above it are
directories. -/
def find? (tree : FileTree) (route : Route) : Option FileEntry :=
  if route <+: tree.base then some .directory else tree.entries.lookup route

/-- Puts an entry at a route, in place of the one that stands there. -/
def insert (tree : FileTree) (route : Route) (entry : FileEntry) : FileTree :=
  { tree with entries := (route, entry) :: tree.entries.filter (fun e => e.1 ≠ route) }

/-! ### Following paths -/

/-- The longest name of a component, in bytes. -/
def longestName : Nat := 255

/-- The length from which on a path is too long, in bytes. -/
def longestPath : Nat := 4096

/-- The route that a component leads to; nothing may stand there. -/
def enter (tree : FileTree) (route : Route) (part : String) : Except FileFault Route :=
  if tree.find? route ≠ some .directory then .error .notADirectory
  else if part = "" ∨ part = "." then .ok route
  else if part = ".." then .ok route.dropLast
  else if longestName < part.utf8ByteSize then .error .invalidFilename
  else .ok (route ++ [part])

/-- Follows components, all of which must exist. -/
def follow (tree : FileTree) : Route → List String → Except FileFault Route
  | route, [] => .ok route
  | route, part :: rest => do
    let next ← tree.enter route part
    if (tree.find? next).isSome then tree.follow next rest else .error .notFound

def components (path : String) : Except FileFault (List String) :=
  if path.toList.contains '\x00' then .error .invalidInput
  else if path = "" then .error .notFound
  else if longestPath ≤ path.utf8ByteSize then .error .invalidFilename
  else .ok ((Path.splitOn '/' path.toList).map String.ofList)

/-- Where a path starts: at the root, or at the working directory. -/
def start (tree : FileTree) (path : String) : Route :=
  if path.toList.head? = some '/' then [] else tree.base

def locate (tree : FileTree) (path : String) : Except FileFault Route := do
  let parts ← components path
  tree.follow (tree.start path) parts

def isDirectory (tree : FileTree) (path : String) : Bool :=
  match tree.locate path with
  | .ok route => tree.find? route = some .directory
  | .error _ => false

/-! ### Reading -/

def readBytes (tree : FileTree) (path : String) : Except FileFault Bytes := do
  let route ← tree.locate path
  match tree.find? route with
  | some (.file content) => pure content
  | some .directory => throw .isADirectory
  | none => throw .notFound

def encode (text : String) : Bytes := text.toUTF8.data.toList

def decode (bytes : Bytes) : Except FileFault String :=
  match String.fromUTF8? ⟨bytes.toArray⟩ with
  | some text => .ok text
  | none => .error .invalidData

def readText (tree : FileTree) (path : String) : Except FileFault String :=
  (tree.readBytes path).bind decode

/-! ### Making directories -/

/-- The components before the last one that is not empty, and that one. -/
def splitLast (parts : List String) : List String × Option String :=
  match parts.reverse.dropWhile (· = "") with
  | [] => (parts, none)
  | last :: before => (before.reverse, some last)

def makeDirectory (tree : FileTree) (path : String) : Except FileFault FileTree := do
  let parts ← components path
  let (before, last) := splitLast parts
  let above ← tree.follow (tree.start path) before
  match last with
  | none => throw .alreadyExists
  | some name =>
    let route ← tree.enter above name
    if name = "." ∨ name = ".." ∨ (tree.find? route).isSome then throw .alreadyExists
    else pure (tree.insert route .directory)

/-- Makes a directory and those above it that are missing.  What has been made
stays, also if a later one cannot be made. -/
def makeDirectories : Nat → String → FileTree → Except FileFault Unit × FileTree
  | 0, _, tree => (.error .other, tree)
  | fuel + 1, path, tree =>
    if path = "" then (.ok (), tree)
    else
      match tree.makeDirectory path with
      | .ok tree => (.ok (), tree)
      | .error .notFound =>
        match Path.parent? path.toList with
        | none => (.error .other, tree)
        | some parent =>
          match makeDirectories fuel (String.ofList parent) tree with
          | (.error fault, tree) => (.error fault, tree)
          | (.ok _, tree) =>
            match tree.makeDirectory path with
            | .ok tree => (.ok (), tree)
            | .error fault => (if tree.isDirectory path then .ok () else .error fault, tree)
      | .error fault => (if tree.isDirectory path then .ok () else .error fault, tree)

def createDirectories (path : String) (tree : FileTree) : Except FileFault Unit × FileTree :=
  makeDirectories (path.length + 1) path tree

/-! ### Writing -/

/-- Writes a file, in place of the one that may stand there. -/
def write (tree : FileTree) (path : String) (content : Bytes) :
    Except FileFault FileTree := do
  let parts ← components path
  let (before, last) := splitLast parts
  let above ← tree.follow (tree.start path) before
  match last with
  | none => throw .isADirectory
  | some name =>
    if before.length + 1 < parts.length ∨ name = "." ∨ name = ".." then
      let _ ← tree.enter above "."
      throw .isADirectory
    else
      let route ← tree.enter above name
      match tree.find? route with
      | some .directory => throw .isADirectory
      | _ => pure (tree.insert route (.file content))

/-! ### Making trees and comparing them

Routes are here seen from the working directory. -/

def addAbove (tree : FileTree) (route : Route) : FileTree :=
  (List.range route.length).foldl (fun tree n =>
    let above := tree.base ++ route.take n
    if (tree.find? above).isSome then tree else tree.insert above .directory) tree

def add (tree : FileTree) (route : Route) (entry : FileEntry) : FileTree :=
  (tree.addAbove route).insert (tree.base ++ route) entry

def routeOf (path : String) : Route :=
  ((Path.splitOn '/' path.toList).map String.ofList).filter fun part => part ≠ "" ∧ part ≠ "."

/-- The files below the working directory. -/
def files (tree : FileTree) : List (Route × Bytes) :=
  tree.entries.filterMap fun e =>
    match tree.base.isPrefixOf? e.1, e.2 with
    | some route, .file content => some (route, content)
    | _, _ => none

def pathOf (route : Route) : String :=
  String.ofList (Path.join (route.map String.toList))

/-- The files of `after` that `before` does not hold, in the order of their paths. -/
def changes (before after : FileTree) : List (String × Bytes) :=
  let changed := after.files.filter fun f =>
    before.find? (before.base ++ f.1) ≠ some (.file f.2)
  (changed.map fun f => (pathOf f.1, f.2)).mergeSort fun f g => f.1 ≤ g.1

/-- The names of what stands directly in the working directory, in order. -/
def names (tree : FileTree) : List String :=
  (tree.entries.filterMap fun e =>
    match tree.base.isPrefixOf? e.1 with
    | some [name] => some name
    | _ => none).mergeSort fun a b => a ≤ b

end FileTree

end ApiTypes
