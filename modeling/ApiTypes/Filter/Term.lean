import ApiTypes.Filter.Arithmetic

/-!
# Terms of the filter language

Strings with values put in, objects with several members and destructuring are
not terms of their own: the reader composes them of the terms below.  `undefined`
lists the names a term uses and nobody defines.
-/

namespace ApiTypes.Filter

/-- A parameter of a definition: a filter, or the value of a variable. -/
inductive Parameter where
  | filter (name : String)
  | value (name : String)
deriving DecidableEq, Repr

mutual

inductive Term where
  /-- The input. -/
  | identity
  /-- No result. -/
  | nothing
  | literal (v : Value)
  /-- The input as the text that is put into strings. -/
  | plainText
  | variable (name : String)
  | call (name : String) (arguments : List Term)
  | define (name : String) (parameters : List Parameter) (body rest : Term)
  | pipe (a b : Term)
  /-- Each result of `a` as a variable in `b`. -/
  | bind (a : Term) (name : String) (b : Term)
  | comma (a b : Term)
  /-- The results of `a` that count as true, those of `b` if there are none. -/
  | alternative (a b : Term)
  | choose (condition yes no : Term)
  | attempt (a handler : Term)
  | label (name : String) (a : Term)
  | leave (name : String)
  /-- The results as an array. -/
  | collect (a : Term)
  /-- An object with one member. -/
  | member (key value : Term)
  | negate (a : Term)
  | combine (op : Operation) (a b : Term)
  | compare (op : Comparison) (a b : Term)
  | and (a b : Term)
  | or (a b : Term)
  | reduce (source : Term) (name : String) (start change : Term)
  | foreach (source : Term) (name : String) (start change view : Term)
  /-- A reduction with a wrong number of arguments. -/
  | illFormed
  | path (a : Term) (steps : List PathStep)
  | assign (a b : Term)
  | update (a b : Term)
  | updateWith (op : Operation) (a b : Term)
  | updateAlternative (a b : Term)

/-- A step of a path, which may be optional. -/
inductive PathStep where
  | at (key : Term) (optional : Bool)
  | slice (low high : Term) (optional : Bool)
  | sliceFrom (low : Term) (optional : Bool)
  | sliceTo (high : Term) (optional : Bool)
  | each (optional : Bool)

end

/-- What a name can stand for. -/
inductive Ident where
  | variable (name : String)
  | label (name : String)
  | filter (name : String) (arity : Nat)
deriving DecidableEq, Repr

def Parameter.used : Parameter → Ident
  | .filter name => .filter name 0
  | .value name => .variable name

namespace Term

/-- The name itself unless it is known. -/
def unknown (scope : List Ident) (name : Ident) : List Ident :=
  if scope.contains name then [] else [name]

mutual

/-- The names that a term uses although they are not in scope. -/
def undefined (scope : List Ident) : Term → List Ident
  | .identity | .nothing | .literal _ | .plainText => []
  | .illFormed => [.filter "" 0]
  | .variable name => unknown scope (.variable name)
  | .call name arguments =>
    unknown scope (.filter name arguments.length) ++ undefinedInAll scope arguments
  | .define name parameters body rest =>
    let scope := .filter name parameters.length :: scope
    undefined (parameters.map Parameter.used ++ scope) body ++ undefined scope rest
  | .bind a name b => undefined scope a ++ undefined (.variable name :: scope) b
  | .label name a => undefined (.label name :: scope) a
  | .leave name => unknown scope (.label name)
  | .collect a | .negate a => undefined scope a
  | .pipe a b | .comma a b | .alternative a b | .attempt a b | .member a b | .combine _ a b
  | .compare _ a b | .and a b | .or a b | .assign a b | .update a b | .updateWith _ a b
  | .updateAlternative a b => undefined scope a ++ undefined scope b
  | .choose a b c => undefined scope a ++ undefined scope b ++ undefined scope c
  | .reduce source name start change =>
    undefined scope source ++ undefined scope start ++ undefined (.variable name :: scope) change
  | .foreach source name start change view =>
    undefined scope source ++ undefined scope start ++
      undefined (.variable name :: scope) change ++ undefined (.variable name :: scope) view
  | .path a steps => undefined scope a ++ undefinedInSteps scope steps

def undefinedInAll (scope : List Ident) : List Term → List Ident
  | [] => []
  | t :: rest => undefined scope t ++ undefinedInAll scope rest

def undefinedInSteps (scope : List Ident) : List PathStep → List Ident
  | [] => []
  | s :: rest => undefinedInStep scope s ++ undefinedInSteps scope rest

def undefinedInStep (scope : List Ident) : PathStep → List Ident
  | .at t _ | .sliceFrom t _ | .sliceTo t _ => undefined scope t
  | .slice a b _ => undefined scope a ++ undefined scope b
  | .each _ => []

end

end Term

end ApiTypes.Filter
