import ApiTypes.Json.Basic

/-!
# Patches

A patch document is merged into a target: objects are merged member by member,
a member that is `null` removes its key, and any other value replaces what was
there.  A removed key leaves the others in their order; a new key comes last.
-/

namespace ApiTypes.Patch

/-- The members of an object; none for other values. -/
def targetMembers : Json → List (String × Json)
  | .object members => members
  | _ => []

mutual

def merge (target : Json) : Json → Json
  | .object patch => .object (mergeMembers (targetMembers target) patch)
  | other => other

/-- The members of a target after those of a patch, one after the other. -/
def mergeMembers (members : List (String × Json)) : List (String × Json) → List (String × Json)
  | [] => members
  | (key, .null) :: rest => mergeMembers (Members.erase key members) rest
  | (key, value) :: rest =>
    let old := (Members.find? members key).getD .null
    mergeMembers (Members.insert key (merge old value) members) rest

end

end ApiTypes.Patch
