import ApiTypes.Target.Basic

/-!
# Flow

Type aliases under the Flow pragma.  A nullable type is written with a question
mark in front.
-/

namespace ApiTypes.Target

def flow : Target := static "mixed" "empty" (fun type => "?" ++ type) "// @flow\n"

end ApiTypes.Target
