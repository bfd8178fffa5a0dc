import ApiTypes.Filter.Library

/-!
# Evaluation of terms

`run` gives the results of a term for an input.  `update` changes the parts of
the input that a term leads to.  Both take at most `fuel` steps one inside the
other.
-/

namespace ApiTypes.Filter

/-! ### Environments -/

/-- What a name stands for. -/
inductive Binding where
  | value (name : String) (v : Value)
  | label (name : String) (number : Nat)
  /-- An argument, with the environment of the call. -/
  | filter (name : String) (body : Term) (env : List Binding)
  /-- A definition; its environment is what it stands in front of, and itself. -/
  | function (name : String) (parameters : List Parameter) (body : Term)

/-- The names in scope, the innermost one first. -/
abbrev Env := List Binding

/-- A filter that is called, with the environment it was made in. -/
inductive Callee where
  | filter (body : Term) (env : Env)
  | function (parameters : List Parameter) (body : Term) (env : Env)

namespace Env

def value? : Env → String → Option Value
  | [], _ => none
  | .value n v :: env, name => if n = name then some v else value? env name
  | _ :: env, name => value? env name

def label? : Env → String → Option Nat
  | [], _ => none
  | .label n number :: env, name => if n = name then some number else label? env name
  | _ :: env, name => label? env name

/-- The filter of this name and number of arguments. -/
def callee? : Env → String → (arity : Nat) → Option Callee
  | [], _, _ => none
  | .filter n body outer :: env, name, arity =>
    if n = name ∧ arity = 0 then some (.filter body outer) else callee? env name arity
  | .function n parameters body :: env, name, arity =>
    if n = name ∧ parameters.length = arity then
      some (.function parameters body (.function n parameters body :: env))
    else callee? env name arity
  | _ :: env, name, arity => callee? env name arity

/-- The environment with arguments bound to parameters.  `eval` gives the results
of an argument, and `caller` is the environment arguments belong to. -/
def withArguments (eval : Term → Results) (caller : Env) :
    List Parameter → List Term → Env → Stream Env
  | .filter name :: parameters, t :: arguments, env =>
    withArguments eval caller parameters arguments (.filter name t caller :: env)
  | .value name :: parameters, t :: arguments, env =>
    (eval t).bind fun v => withArguments eval caller parameters arguments (.value name v :: env)
  | _, _, env => .one env

def ofDefinitions : Term → Env → Env
  | .define name parameters body rest, env =>
    ofDefinitions rest (.function name parameters body :: env)
  | _, env => env

def library : Env := ofDefinitions Library.program []

def idents : Env → List Ident
  | [] => []
  | .value name _ :: env => .variable name :: idents env
  | .label name _ :: env => .label name :: idents env
  | .filter name _ _ :: env => .filter name 0 :: idents env
  | .function name parameters _ :: env => .filter name parameters.length :: idents env

end Env

/-! ### Helpers of evaluation -/

def combinations (eval : Term → Results) : List Term → Stream (List Value)
  | [] => .one []
  | t :: rest => (eval t).bind fun v => (combinations eval rest).map (v :: ·)

/-- The steps with each combination of the values of their terms. -/
def stepsOf (eval : Term → Results) : List PathStep → Stream (List Step)
  | [] => .one []
  | .at t optional :: rest =>
    (eval t).bind fun key => (stepsOf eval rest).map (⟨.at key, optional⟩ :: ·)
  | .slice a b optional :: rest =>
    (eval a).bind fun low => (eval b).bind fun high =>
      (stepsOf eval rest).map (⟨.slice (some low) (some high), optional⟩ :: ·)
  | .sliceFrom t optional :: rest =>
    (eval t).bind fun low => (stepsOf eval rest).map (⟨.slice (some low) none, optional⟩ :: ·)
  | .sliceTo t optional :: rest =>
    (eval t).bind fun high => (stepsOf eval rest).map (⟨.slice none (some high), optional⟩ :: ·)
  | .each optional :: rest => (stepsOf eval rest).map (⟨.each, optional⟩ :: ·)

/-- Updates inside updates, one for each thing of a stream. -/
def nestUpdates (update : Value → (Value → Results) → Value → Results) (f : Value → Results) :
    Results → Value → Results
  | .nil, v => f v
  | .cons (.error e) _, _ => .fail e
  | .cons (.ok x) tail, v => update x (fun w => nestUpdates update f (tail ()) w) v

def countsAsTrue : Except Exception Value → Bool
  | .ok v => v.isTrue
  | .error _ => true

def single (key v : Value) : Except Exception Value :=
  match key with
  | .string k => .ok (.object [(k, v)])
  | key => .error (.kind key "string")

def unknownName (name : String) : Results := .fail (.text (name ++ " is not defined"))

/-! ### Evaluation -/

mutual

def run : (fuel : Nat) → Env → Term → Value → Results
  | 0, _, _, _ => .fail .exhausted
  | fuel + 1, env, t, v =>
    match t with
    | .identity => .one v
    | .nothing => .nil
    | .literal w => .one w
    | .plainText => .one (.string v.plainText)
    | .variable name =>
      match env.value? name with
      | some w => .one w
      | none => unknownName name
    | .call name arguments =>
      match env.callee? name arguments.length with
      | some (.filter body inner) => run fuel inner body v
      | some (.function parameters body inner) =>
        (Env.withArguments (fun a => run fuel env a v) env parameters arguments inner).bind
          fun inner => run fuel inner body v
      | none =>
        match Native.find? name arguments.length with
        | some (.onValues f) =>
          (combinations (fun a => run fuel env a v) arguments).bind fun vs => f vs v
        | some (.onFilters f) => f (arguments.map fun a w => run fuel env a w) v
        | none => unknownName name
    | .define name parameters body rest =>
      run fuel (.function name parameters body :: env) rest v
    | .pipe a b => (run fuel env a v).bind (run fuel env b)
    | .bind a name b => (run fuel env a v).bind fun x => run fuel (.value name x :: env) b v
    | .comma a b => (run fuel env a v).append fun _ => run fuel env b v
    | .alternative a b =>
      match (run fuel env a v).filter countsAsTrue with
      | .nil => run fuel env b v
      | results => results
    | .choose c a b =>
      (run fuel env c v).bind fun x => run fuel env (if x.isTrue then a else b) v
    | .attempt a handler => (run fuel env a v).rescue (run fuel env handler)
    -- the fuel that is left differs for labels inside one another, so it numbers them
    | .label name a => (run fuel (.label name fuel :: env) a v).untilJump fuel
    | .leave name =>
      match env.label? name with
      | some number => .fail (.jump number)
      | none => unknownName name
    | .collect a => .ofExcept ((run fuel env a v).toList.map .array)
    | .member a b =>
      (run fuel env a v).bind fun key => (run fuel env b v).mapM (single key)
    | .negate a => (run fuel env a v).mapM negate
    | .combine op a b => (run fuel env a v).bind fun x => (run fuel env b v).mapM (op.apply x)
    | .compare op a b =>
      (run fuel env a v).bind fun x => (run fuel env b v).map fun y => .bool (op.holds x y)
    | .and a b =>
      (run fuel env a v).bind fun x =>
        if x.isTrue then (run fuel env b v).map fun y => .bool y.isTrue else .one (.bool false)
    | .or a b =>
      (run fuel env a v).bind fun x =>
        if x.isTrue then .one (.bool true) else (run fuel env b v).map fun y => .bool y.isTrue
    | .reduce source name start change =>
      (run fuel env start v).bind
        ((run fuel env source v).fold fun x s => run fuel (.value name x :: env) change s)
    | .foreach source name start change view =>
      (run fuel env start v).bind
        ((run fuel env source v).scan
          (fun x s => run fuel (.value name x :: env) change s)
          (fun x s => run fuel (.value name x :: env) view s))
    | .illFormed => unknownName ""
    | .path a steps =>
      (run fuel env a v).bind fun w =>
        (stepsOf (fun t => run fuel env t v) steps).bind fun steps => Step.follow steps w
    | .assign a b => (run fuel env b v).bind fun y => update fuel env a (fun _ => .one y) v
    | .update a b => update fuel env a (run fuel env b) v
    | .updateWith op a b =>
      (run fuel env b v).bind fun y => update fuel env a (fun x => .ofExcept (op.apply x y)) v
    | .updateAlternative a b =>
      (run fuel env b v).bind fun y =>
        update fuel env a (fun x => .one (if x.isTrue then x else y)) v

/-- What becomes of a value when `f` changes the parts that a term leads to. -/
def update : (fuel : Nat) → Env → Term → (Value → Results) → Value → Results
  | 0, _, _, _, _ => .fail .exhausted
  | fuel + 1, env, t, f, v =>
    match t with
    | .identity => f v
    | .nothing => .one v
    | .call name arguments =>
      match env.callee? name arguments.length with
      | some (.filter body inner) => update fuel inner body f v
      | some (.function parameters body inner) =>
        (Env.withArguments (fun a => run fuel env a v) env parameters arguments inner).fold
          (fun inner w => update fuel inner body f w) v
      | none => if name = "empty" ∧ arguments.isEmpty then .one v else refuse v
    | .define name parameters body rest =>
      update fuel (.function name parameters body :: env) rest f v
    | .pipe a b => update fuel env a (fun w => update fuel env b f w) v
    | .bind a name b =>
      (run fuel env a v).fold (fun x w => update fuel (.value name x :: env) b f w) v
    | .comma a b => (update fuel env a f v).bind fun w => update fuel env b f w
    | .alternative a b =>
      match ((run fuel env a v).filter countsAsTrue).first? with
      | some _ => update fuel env a f v
      | none => update fuel env b f v
    | .choose c a b =>
      (run fuel env c v).fold (fun x w => update fuel env (if x.isTrue then a else b) f w) v
    | .reduce source name start change =>
      update fuel env start
        (nestUpdates (fun x g w => update fuel (.value name x :: env) change g w) f
          (run fuel env source v)) v
    | .path a steps =>
      update fuel env a
        (fun w => (stepsOf (fun t => run fuel env t v) steps).fold (Step.change f) w) v
    | _ => refuse v
where
  /-- The term leads to no part. -/
  refuse (v : Value) : Results := .fail (.text ("invalid path expression with input " ++ v.text))

end

end ApiTypes.Filter
