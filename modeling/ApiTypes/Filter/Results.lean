import ApiTypes.Filter.Value

/-!
# Streams of results

A filter gives any number of results one after the other.  Each is a value or
an exception, and what follows it is computed only when it is asked for.
-/

namespace ApiTypes.Filter

/-- What interrupts a filter. -/
inductive Exception where
  /-- An error that carries a value. -/
  | raised (v : Value)
  /-- A jump to the end of a label's filter. -/
  | jump (label : Nat)
  /-- The filter took too many steps. -/
  | exhausted

/-- A lazy stream of things or exceptions. -/
inductive Stream (α : Type) where
  | nil
  | cons (head : Except Exception α) (tail : Unit → Stream α)

abbrev Results := Stream Value

namespace Stream

variable {α β : Type}

def one (a : α) : Stream α := .cons (.ok a) fun _ => .nil

def fail (e : Exception) : Stream α := .cons (.error e) fun _ => .nil

def ofExcept (r : Except Exception α) : Stream α := .cons r fun _ => .nil

def ofList : List α → Stream α
  | [] => .nil
  | a :: rest => .cons (.ok a) fun _ => ofList rest

def append : Stream α → (Unit → Stream α) → Stream α
  | .nil, next => next ()
  | .cons a tail, next => .cons a fun _ => (tail ()).append next

/-- The streams that follow from each thing, one after the other; exceptions
stay. -/
def bind : Stream α → (α → Stream β) → Stream β
  | .nil, _ => .nil
  | .cons (.ok a) tail, f => (f a).append fun _ => (tail ()).bind f
  | .cons (.error e) tail, f => .cons (.error e) fun _ => (tail ()).bind f

/-- Applies `f` to each thing. -/
def map (f : α → β) : Stream α → Stream β
  | .nil => .nil
  | .cons a tail => .cons (a.map f) fun _ => (tail ()).map f

/-- Applies `f`, which may fail, to each thing. -/
def mapM (f : α → Except Exception β) : Stream α → Stream β
  | .nil => .nil
  | .cons a tail => .cons (a.bind f) fun _ => (tail ()).mapM f

/-- The things and exceptions that satisfy `p`. -/
def filter (p : Except Exception α → Bool) : Stream α → Stream α
  | .nil => .nil
  | .cons a tail => if p a then .cons a fun _ => (tail ()).filter p else (tail ()).filter p

def first? : Stream α → Option (Except Exception α)
  | .nil => none
  | .cons a _ => some a

/-- The last thing, unless an exception precedes it. -/
def last? : Stream α → Option (Except Exception α)
  | .nil => none
  | .cons (.error e) _ => some (.error e)
  | .cons (.ok a) tail =>
    match (tail ()).last? with
    | none => some (.ok a)
    | some r => some r

/-- The first `n` things or exceptions. -/
def take : Nat → Stream α → Stream α
  | 0, _ => .nil
  | _ + 1, .nil => .nil
  | 1, .cons a _ => .cons a fun _ => .nil
  | n + 2, .cons a tail => .cons a fun _ => (tail ()).take (n + 1)

/-- All but the first `n` things; exceptions among them stay. -/
def drop : Nat → Stream α → Stream α
  | 0, s => s
  | _ + 1, .nil => .nil
  | n + 1, .cons (.ok _) tail => (tail ()).drop n
  | n + 1, .cons (.error e) tail => .cons (.error e) fun _ => (tail ()).drop n

/-- All things, or the first exception. -/
def toList : Stream α → Except Exception (List α)
  | .nil => .ok []
  | .cons (.error e) _ => .error e
  | .cons (.ok a) tail => (tail ()).toList.map (a :: ·)

def untilJump (label : Nat) : Stream α → Stream α
  | .nil => .nil
  | .cons (.error (.jump l)) tail =>
    if l = label then .nil else .cons (.error (.jump l)) fun _ => (tail ()).untilJump label
  | .cons a tail => .cons a fun _ => (tail ()).untilJump label

/-- Goes on with `handler` at the value of the first error. -/
def rescue (handler : Value → Stream α) : Stream α → Stream α
  | .nil => .nil
  | .cons (.error (.raised v)) _ => handler v
  | .cons a tail => .cons a fun _ => (tail ()).rescue handler

/-- The states that result when each thing in turn changes the state; each
outcome of a change goes its own way. -/
def fold (change : α → β → Stream β) : Stream α → β → Stream β
  | .nil, s => .one s
  | .cons (.error e) _, _ => .fail e
  | .cons (.ok a) tail, s => (change a s).bind fun s => (tail ()).fold change s

/-- As `fold`, but what `view` makes of each state on the way is the result. -/
def scan {γ : Type} (change : α → β → Stream β) (view : α → β → Stream γ) :
    Stream α → β → Stream γ
  | .nil, _ => .nil
  | .cons (.error e) _, _ => .fail e
  | .cons (.ok a) tail, s =>
    (change a s).bind fun s => (view a s).append fun _ => (tail ()).scan change view s

/-- The integers from `low` on, `step` apart, `count` of them. -/
def integers : Nat → (low step : Int) → Stream Int
  | 0, _, _ => .nil
  | count + 1, low, step => .cons (.ok low) fun _ => integers count (low + step) step

end Stream

def Exception.text (message : String) : Exception := .raised (.string message)

def Exception.kind (v : Value) (needed : String) : Exception :=
  .text ("cannot use " ++ v.text ++ " as " ++ needed)

/-- The error that `v` has no part `key`. -/
def Exception.access (v key : Value) : Exception :=
  .text ("cannot index " ++ v.text ++ " with " ++ key.text)

end ApiTypes.Filter
