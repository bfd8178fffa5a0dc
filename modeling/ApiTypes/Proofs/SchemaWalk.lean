import ApiTypes.Proofs.Paths
import ApiTypes.Schema.Basic

/-!
# The walk through named schemas

Named schemas are walked through depth first and in document order: the map itself, every
schema, and below a schema what its keywords hold.  Other keys and the values of an
enumeration are not entered.  Every place on the walk calls for a kind of value; a visit
is a value that is met, with its place and the path that leads to it.
-/

namespace ApiTypes

/-- What a place calls for. -/
inductive Expected where
  | string
  | boolean
  | schema
  /-- A list of any values. -/
  | values
  | list (item : Expected)
  | map (value : Expected)
  /-- `null` may stand here too. -/
  | optional (expected : Expected)
deriving DecidableEq, Repr

namespace Expected

/-- How a message names the kind of value. -/
def text : Expected → String
  | string => "a string"
  | boolean => "a boolean"
  | schema => "struct RawSchema"
  | values | list _ => "a sequence"
  | map _ => "a map"
  | optional expected => expected.text

/-- Whether a value is of the kind that a place calls for, its parts aside. -/
def fits : Expected → Json → Bool
  | string, .string _ | boolean, .bool _ => true
  | schema, .object _ | map _, .object _ => true
  | values, .array _ | list _, .array _ => true
  | optional _, .null => true
  | optional expected, value => expected.fits value
  | _, _ => false

end Expected

def Keyword.expected : Keyword → Expected
  | .reference | .type => .string
  | .allOf | .anyOf | .oneOf => .list .schema
  | .items => .schema
  | .properties => .map .schema
  | .required => .list .string
  | .enum => .values
  | .nullable => .boolean

/-- What the parts of a place call for; nothing where they are not entered. -/
def Expected.part? : Expected → Step → Option Expected
  | schema, .key key => (Keyword.ofName? key).map fun k => .optional k.expected
  | list item, .index _ => some item
  | map value, .key _ => some value
  | optional expected, step => expected.part? step
  | _, _ => none

/-- A value on the walk, the way to it and what its place calls for. -/
structure Visit where
  path : List Step
  expected : Expected
  value : Json
deriving DecidableEq

namespace Visit

def under (step : Step) (v : Visit) : Visit := { v with path := step :: v.path }

def fits (v : Visit) : Bool := v.expected.fits v.value

end Visit

mutual

/-- The walk below a value: each part that is entered, in order, with what is below it. -/
def below (expected : Expected) : Json → List Visit
  | .array items => itemVisits expected.part? 0 items
  | .object members => memberVisits expected.part? members
  | _ => []

def itemVisits (part? : Step → Option Expected) : Nat → List Json → List Visit
  | _, [] => []
  | i, item :: rest =>
    (match part? (.index i) with
      | some expected => (⟨[], expected, item⟩ :: below expected item).map (.under (.index i))
      | none => []) ++ itemVisits part? (i + 1) rest

def memberVisits (part? : Step → Option Expected) : List (String × Json) → List Visit
  | [] => []
  | (key, value) :: rest =>
    (match part? (.key key) with
      | some expected => (⟨[], expected, value⟩ :: below expected value).map (.under (.key key))
      | none => []) ++ memberVisits part? rest

end

/-- The walk through a value. -/
def visits (expected : Expected) (value : Json) : List Visit :=
  ⟨[], expected, value⟩ :: below expected value

/-! ### The way to a visit -/

theorem forall_mem_visits {expected : Expected} {value : Json}
    (h : ∀ v ∈ below expected value, value.at? v.path = some v.value) :
    ∀ v ∈ visits expected value, value.at? v.path = some v.value :=
  List.forall_mem_cons.mpr ⟨rfl, h⟩

mutual

theorem at?_of_mem_below : ∀ (expected : Expected) (value : Json), value.Distinct →
    ∀ v ∈ below expected value, value.at? v.path = some v.value
  | expected, .array items, h =>
    at?_of_mem_itemVisits expected.part? 0 items items (fun j => by rw [Nat.zero_add]) h
  | expected, .object members, h =>
    at?_of_mem_memberVisits expected.part? members members
      (fun _ hm => (Members.find?_eq_some_iff_mem h.1).mpr hm) h.2
  | _, .null, _ | _, .bool _, _ | _, .number _, _ | _, .string _, _ => List.forall_mem_nil _

theorem at?_of_mem_itemVisits : ∀ (part? : Step → Option Expected) (i : Nat)
    (items all : List Json), (∀ j, all[i + j]? = items[j]?) → Json.DistinctItems items →
    ∀ v ∈ itemVisits part? i items, (Json.array all).at? v.path = some v.value
  | _, _, [], _, _, _ => List.forall_mem_nil _
  | part?, i, item :: rest, all, hall, h => by
    have hitem : all[i]? = some item := hall 0
    have hrest : ∀ j, all[i + 1 + j]? = rest[j]? := by
      intro j
      rw [Nat.add_assoc, Nat.add_comm 1 j]
      exact hall (j + 1)
    rw [itemVisits]
    refine List.forall_mem_append.mpr
      ⟨?_, at?_of_mem_itemVisits part? (i + 1) rest all hrest h.2⟩
    cases part? (.index i) with
    | none => exact List.forall_mem_nil _
    | some expected =>
      refine List.forall_mem_map.mpr fun v hv => ?_
      have hv := forall_mem_visits (at?_of_mem_below expected item h.1) v hv
      show (all[i]?.bind fun part => part.at? v.path) = some v.value
      rw [hitem]
      exact hv

theorem at?_of_mem_memberVisits : ∀ (part? : Step → Option Expected)
    (members all : List (String × Json)),
    (∀ m ∈ members, Members.find? all m.1 = some m.2) → Json.DistinctMembers members →
    ∀ v ∈ memberVisits part? members, (Json.object all).at? v.path = some v.value
  | _, [], _, _, _ => List.forall_mem_nil _
  | part?, (key, value) :: rest, all, hall, h => by
    rw [List.forall_mem_cons] at hall
    rw [memberVisits]
    refine List.forall_mem_append.mpr ⟨?_, at?_of_mem_memberVisits part? rest all hall.2 h.2⟩
    cases part? (.key key) with
    | none => exact List.forall_mem_nil _
    | some expected =>
      refine List.forall_mem_map.mpr fun v hv => ?_
      have hv := forall_mem_visits (at?_of_mem_below expected value h.1) v hv
      show ((Members.find? all key).bind fun part => part.at? v.path) = some v.value
      rw [hall.1]
      exact hv

end

end ApiTypes
