import ApiTypes.Filter.Order
import ApiTypes.Filter.Results

/-!
# Sorting by keys

Items are sorted by all results that a filter gives for them, compared one by
one.  Equal items keep their order.
-/

namespace ApiTypes.Filter.Sorting

/-- An item and its key. -/
structure Keyed where
  key : Value
  item : Value

/-- The items of an array with their keys. -/
def keyed (key : Value → Results) : List Value → Except Exception (List Keyed)
  | [] => .ok []
  | item :: rest => do
    let k ← (key item).toList
    let rest ← keyed key rest
    pure (⟨.array k, item⟩ :: rest)

def sort (items : List Keyed) : List Keyed :=
  items.mergeSort fun a b => a.key.order b.key != .gt

/-- Splits a sorted list where the key changes; `run` is the group so far, its
last item first. -/
def splitRuns : (run : List Keyed) → List Keyed → List (List Keyed)
  | [], [] => []
  | run, [] => [run.reverse]
  | [], a :: rest => splitRuns [a] rest
  | b :: run, a :: rest =>
    if a.key.isEqual b.key then splitRuns (a :: b :: run) rest
    else (b :: run).reverse :: splitRuns [a] rest

/-- The groups of items with equal keys, in the order of the keys. -/
def groups (items : List Keyed) : List (List Keyed) := splitRuns [] (sort items)

def least? : List Keyed → Option Keyed
  | [] => none
  | a :: rest => some (rest.foldl (fun b c => if c.key.order b.key == .lt then c else b) a)

def greatest? : List Keyed → Option Keyed
  | [] => none
  | a :: rest => some (rest.foldl (fun b c => if c.key.order b.key == .lt then b else c) a)

end ApiTypes.Filter.Sorting
