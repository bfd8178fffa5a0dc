import ApiTypes.CommandLine.World
import ApiTypes.Proofs.FileFrames

/-!
# Runs of the command line

A run is all or nothing: the first stage that fails ends it with its error, no file
has changed by then and nothing has been printed.  A run that succeeds has changed
one file, or printed, and what it has written is generated from the filtered and
patched document.
-/

namespace ApiTypes.CommandLine

/-! ### Stages in a world -/

section
variable {ε ε' α β : Type}

end

section
variable {arguments : List String} {w : World} {s : Settings} {c : Command} {e : RunError}

end

example :
    let files := FileTree.empty.add ["a.json"] (.file (FileTree.encode
      ("\x7b\"openapi\":\"3.0.0\",\"components\":\x7b\"schemas\":\x7b\"A\":" ++
        "\x7b\"type\":\"string\"\x7d\x7d\x7d\x7d")))
    let result := runIn ["typescript", "--input", "a.json", "--out", "d/x.ts"] ⟨files, [], "", ""⟩
    result.1 = .ok () ∧ result.2.files.readText "d/x.ts" = .ok "export type A=string" := by
  decide +kernel

end ApiTypes.CommandLine
