import ApiTypes.Target.Basic

/-!
# TypeScript

Type aliases.  A nullable type is its union with `null`.
-/

namespace ApiTypes.Target

def typeScript : Target := static "unknown" "never" (fun type => "(" ++ type ++ "|null)") ""

end ApiTypes.Target
