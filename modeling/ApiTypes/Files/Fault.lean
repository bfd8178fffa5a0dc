/-!
# Faults of files

Why an operation on files cannot be done.
-/

namespace ApiTypes

/-- Why an operation on files cannot be done. -/
inductive FileFault where
  | notFound
  /-- A component that others follow is no directory. -/
  | notADirectory
  | isADirectory
  | alreadyExists
  /-- The content is no text. -/
  | invalidData
  /-- The path holds a character that no path holds. -/
  | invalidInput
  /-- The path or a component of it is too long. -/
  | invalidFilename
  | permissionDenied
  | other
deriving DecidableEq, Repr

def FileFault.name : FileFault → String
  | notFound => "NotFound"
  | notADirectory => "NotADirectory"
  | isADirectory => "IsADirectory"
  | alreadyExists => "AlreadyExists"
  | invalidData => "InvalidData"
  | invalidInput => "InvalidInput"
  | invalidFilename => "InvalidFilename"
  | permissionDenied => "PermissionDenied"
  | other => "Other"

end ApiTypes
