import ApiTypes.CommandLine.Arguments
import ApiTypes.Text.Debug

/-!
# Showing commands

`Command.display` shows a command with all its settings, one to a line, each
level indented by four spaces.
-/

namespace ApiTypes.CommandLine

/-- Lines inside a bracketed block, and the brackets: the line `opening` goes
before them. -/
def block (opening close : String) (inner : List String) : List String :=
  [opening] ++ inner.map (fun line => "    " ++ line) ++ [close]

def appendLast (suffix : String) : List String → List String
  | [] => []
  | [line] => [line ++ suffix]
  | line :: rest => line :: appendLast suffix rest

/-- A named part: its name before the first line, a comma behind the last. -/
def entry (name : String) : List String → List String
  | [] => []
  | line :: rest => appendLast "," ((name ++ ": " ++ line) :: rest)

/-- An optional text; `quote` writes it where it is given. -/
def displayOption (quote : String → String) : Option String → List String
  | none => ["None"]
  | some s => block "Some(" ")" [quote s ++ ","]

def displayBool (b : Bool) : List String := [if b then "true" else "false"]

/-- A path: as other texts, but single quotes are escaped too. -/
def inspectPath (s : String) : String :=
  String.ofList ('"' :: s.toList.flatMap (fun c =>
    if c = '\'' then ['\\', '\''] else Text.inspectChar c) ++ ['"'])

def Settings.display (s : Settings) : List String :=
  block "Target \x7b" "\x7d"
    (entry "input_settings" (block "InputSettings \x7b" "\x7d"
      (entry "input" [Text.inspect s.input] ++
        entry "patch" (displayOption Text.inspect s.patch) ++
        entry "jq_expr" (displayOption Text.inspect s.filter))) ++
      entry "exit_on_invalid_type" (displayBool s.exitOnInvalidType) ++
      entry "out" (displayOption inspectPath s.out) ++
      entry "no_op" (displayBool s.noOp))

def commandName : OutputType → String
  | .typeScript => "Typescript"
  | .flow => "Flow"
  | .codec => "Codec"

/-- A command with its settings, over several lines. -/
def Command.display (c : Command) : String :=
  Text.joinWith "\n" <|
    block "CommandLineInterface \x7b" "\x7d"
      (entry "cmd" (block (commandName c.outputType ++ "(") ")"
        (appendLast "," c.settings.display)))

end ApiTypes.CommandLine
