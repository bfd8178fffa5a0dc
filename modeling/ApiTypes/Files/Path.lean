/-!
# Paths

A path is a text of components between slashes.  Empty components name nothing,
and neither do single points, except at the front.
-/

namespace ApiTypes.Path

/-- The parts of a text between the characters `separator`. -/
def splitOn (separator : Char) : List Char → List (List Char)
  | [] => [[]]
  | c :: rest =>
    if c = separator then [] :: splitOn separator rest
    else
      match splitOn separator rest with
      | [] => [[c]]
      | part :: parts => (c :: part) :: parts

/-- The last component of a path that names something: empty ones are passed,
and so are single points that do not stand at the front. -/
def fileName (path : List Char) : Option (List Char) :=
  let parts := splitOn '/' path
  let named := (parts.take 1).filter (fun p => p ≠ []) ++
    (parts.drop 1).filter fun p => p ≠ [] ∧ p ≠ ['.']
  match named.getLast? with
  | none => none
  | some name => if name = ['.', '.'] ∨ name = ['.'] then none else some name

/-- The name before its last point and what follows it.  A point at the front
begins no extension. -/
def splitExtension (name : List Char) : List Char × Option (List Char) :=
  let after := name.reverse.takeWhile (· ≠ '.')
  let before := name.reverse.drop (after.length + 1)
  if after.length = name.length ∨ before.isEmpty then (name, none)
  else (before.reverse, some after.reverse)

def extension (path : List Char) : Option (List Char) :=
  (fileName path).bind fun name => (splitExtension name).2

/-! ### Parents -/

/-- The numbers of the components that name something, the first component having
the number `i`. -/
def significant : Nat → List (List Char) → List Nat
  | _, [] => []
  | i, part :: rest =>
    if part = [] ∨ (part = ['.'] ∧ i ≠ 0) then significant (i + 1) rest
    else i :: significant (i + 1) rest

/-- Components with slashes between them. -/
def join : List (List Char) → List Char
  | [] => []
  | [part] => part
  | part :: next :: rest => part ++ '/' :: join (next :: rest)

/-- The path without its last component and what separates it; nothing for a path
without components. -/
def parent? (path : List Char) : Option (List Char) :=
  let parts := splitOn '/' path
  match (significant 0 parts).reverse with
  | [] => none
  | [_] => some (if path.head? = some '/' then ['/'] else [])
  | _ :: last :: _ => some (join (parts.take (last + 1)))

end ApiTypes.Path
