import ApiTypes.Decoding.Failure
import ApiTypes.Proofs.DistinctKeys

/-!
# Parts of a value

A path leads from a value to a part of it, by keys into objects and by indices into
arrays.  Where it leads nowhere, nothing stands.  A property that passes to items and
members holds of all parts.
-/

namespace ApiTypes.Json

/-- The part that one step leads to. -/
def part? : Json → Step → Option Json
  | .object members, .key key => Members.find? members key
  | .array items, .index i => items[i]?
  | _, _ => none

def at? (value : Json) : List Step → Option Json
  | [] => some value
  | step :: rest => (value.part? step).bind fun part => part.at? rest

/-- What stands under keys, one inside the other. -/
def under? (value : Json) (keys : List String) : Option Json := value.at? (keys.map Step.key)

theorem part?_key (value : Json) (key : String) : value.part? (.key key) = value.member? key := by
  cases value <;> rfl

/-! ### Values under keys -/

theorem under?_cons (value : Json) (key : String) (rest : List String) :
    value.under? (key :: rest) = (value.member? key).bind fun part => part.under? rest := by
  rw [under?, List.map_cons, at?, part?_key]
  rfl

theorem under?_append (value : Json) (front rest : List String) :
    value.under? (front ++ rest) = (value.under? front).bind fun part => part.under? rest := by
  induction front generalizing value with
  | nil => rfl
  | cons key front ih =>
    rw [List.cons_append, under?_cons, under?_cons]
    cases value.member? key with
    | none => rfl
    | some part => exact ih part

theorem under?_concat (value : Json) (front : List String) (key : String) :
    value.under? (front ++ [key]) = (value.under? front).bind fun part => part.member? key := by
  rw [under?_append]
  refine congrArg _ (funext fun part => ?_)
  rw [under?_cons]
  cases part.member? key <;> rfl

theorem member?_of_not_object {value : Json} (h : ∀ members, value ≠ .object members)
    (key : String) : value.member? key = none := by
  cases value with
  | object members => exact absurd rfl (h members)
  | _ => rfl

/-! ### What passes to parts -/

theorem Hereditary.member? {P : Json → Prop} (hP : Hereditary P) {value part : Json}
    {key : String} (hvalue : P value) (h : value.member? key = some part) : P part := by
  cases value with
  | object members =>
    have hmem : (key, part) ∈ members := Members.mem_of_find? h
    exact hP.member members hvalue _ hmem
  | _ => cases h

theorem Hereditary.under? {P : Json → Prop} (hP : Hereditary P) {value part : Json}
    {keys : List String} (hvalue : P value) (h : value.under? keys = some part) : P part := by
  induction keys generalizing value with
  | nil =>
    obtain rfl := Option.some.inj h
    exact hvalue
  | cons key rest ih =>
    rw [under?_cons] at h
    obtain ⟨next, hnext, hrest⟩ := Option.bind_eq_some_iff.mp h
    exact ih (hP.member? hvalue hnext) hrest

section
variable {P : Json → Prop}

mutual

/-- What holds of an object whenever it holds of its members, and of every other value,
holds of all values. -/
theorem induction_members (object : ∀ members, (∀ m ∈ members, P m.2) → P (.object members))
    (other : ∀ value, (∀ members, value ≠ .object members) → P value) : ∀ value : Json, P value
  | .object members => object members (forall_members object other members)
  | .null | .bool _ | .number _ | .string _ | .array _ => other _ fun _ h => by cases h

theorem forall_members (object : ∀ members, (∀ m ∈ members, P m.2) → P (.object members))
    (other : ∀ value, (∀ members, value ≠ .object members) → P value) :
    ∀ members : List (String × Json), ∀ m ∈ members, P m.2
  | [] => List.forall_mem_nil _
  | (_, value) :: rest => List.forall_mem_cons.mpr
    ⟨induction_members object other value, forall_members object other rest⟩

end

end

end ApiTypes.Json
