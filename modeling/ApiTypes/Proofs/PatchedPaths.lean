import ApiTypes.Proofs.PatchedMembers
import ApiTypes.Proofs.Paths
import Mathlib.Order.ConditionallyCompleteLattice.Basic
import Mathlib.Order.Lattice.Nat

/-!
# Paths under a patch

What stands at a path of keys after a patch is settled by the last object of the patch
along that path: it is an object where the patch has one at the path itself; else the key
that follows the last object is left alone, removed or replaced.  At every object of the
patch the result has an object, whose keys are the former ones in their order and behind
them the new ones in the order of the patch.
-/

namespace ApiTypes.Patch
open Json (under?_cons under?_append under?_concat)

/-- Whether a patch has objects along the first `m` keys of a path. -/
structure ObjectsAlong (patch : Json) (path : List String) (m : Nat) : Prop where
  le_length : m ≤ path.length
  object : ∀ i ≤ m, ∃ members, patch.under? (path.take i) = some (.object members)

/-- What stands at a path in the result of a patch that has objects along the first `m`
keys of the path and no further. -/
inductive PatchedAt (target patch result : Json) (path : List String) (m : Nat) : Prop
  | object {members : List (String × Json)} (whole : m = path.length)
    (stands : result.under? path = some (.object members))
  | untouched {key : String} {last : List (String × Json)} (next : path[m]? = some key)
    (reached : patch.under? (path.take m) = some (.object last))
    (absent : key ∉ last.map Prod.fst)
    (same : result.under? path = target.under? path)
  | removed {key : String} {last : List (String × Json)} (next : path[m]? = some key)
    (reached : patch.under? (path.take m) = some (.object last))
    (null : (key, .null) ∈ last)
    (gone : result.under? path = none)
  | replaced {key : String} {last : List (String × Json)} {value : Json}
    (next : path[m]? = some key)
    (reached : patch.under? (path.take m) = some (.object last))
    (present : (key, value) ∈ last) (not_null : value ≠ .null)
    (not_object : ∀ members, value ≠ .object members)
    (new : result.under? path = value.under? (path.drop (m + 1)))

/-! ### Objects of a patch -/

section
variable {patch : Json} {path : List String}

theorem exists_greatest_objectsAlong (members : List (String × Json)) (path : List String) :
    ∃ m, IsGreatest {m | ObjectsAlong (.object members) path m} m := by
  have hzero : ObjectsAlong (.object members) path 0 := by
    refine ⟨Nat.zero_le _, fun i hi => ⟨members, ?_⟩⟩
    rw [Nat.le_zero.mp hi]
    rfl
  have hbound : BddAbove {m | ObjectsAlong (.object members) path m} :=
    ⟨path.length, fun m hm => hm.le_length⟩
  exact ⟨sSup _, Nat.sSup_mem ⟨0, hzero⟩ hbound, fun m hm => le_csSup hbound hm⟩

theorem ObjectsAlong.succ {m : Nat} {key : String} {last members : List (String × Json)}
    (h : ObjectsAlong patch path m) (hkey : path[m]? = some key)
    (hlast : patch.under? (path.take m) = some (.object last))
    (hvalue : Members.find? last key = some (.object members)) :
    ObjectsAlong patch path (m + 1) := by
  obtain ⟨hlt, hget⟩ := List.getElem?_eq_some_iff.mp hkey
  refine ⟨hlt, fun i hi => ?_⟩
  by_cases hle : i ≤ m
  · exact h.object i hle
  · have hi : i = m + 1 := by omega
    have htake : path.take i = path.take m ++ [key] := by
      rw [hi, List.take_add_one, hkey]
      rfl
    refine ⟨members, ?_⟩
    rw [htake, under?_concat, hlast]
    exact hvalue

end

/-! ### Results along a path -/

theorem nodup_of_under? {patch : Json} (h : patch.Distinct) {path : List String}
    {last : List (String × Json)} (hlast : patch.under? path = some (.object last)) :
    (last.map Prod.fst).Nodup :=
  (Json.hereditary_distinct.under? h hlast).1

/-- A value that is missing is patched as `null` is. -/
theorem getD_under?_cons (target : Json) (key : String) (rest : List String) :
    (target.under? (key :: rest)).getD .null =
      (((target.member? key).getD .null).under? rest).getD .null := by
  rw [under?_cons]
  cases target.member? key with
  | some part => rfl
  | none =>
    cases rest with
    | nil => rfl
    | cons next rest => rfl

/-- At an object of the patch the result is what stood there under that object. -/
theorem under?_merge {patch : Json} (h : patch.Distinct) {path : List String}
    {last : List (String × Json)} (hlast : patch.under? path = some (.object last))
    (target : Json) :
    (merge target patch).under? path =
      some (merge ((target.under? path).getD .null) (.object last)) := by
  induction path generalizing patch target with
  | nil =>
    obtain rfl := Option.some.inj hlast
    rfl
  | cons key rest ih =>
    rw [under?_cons] at hlast
    obtain ⟨value, hvalue, hrest⟩ := Option.bind_eq_some_iff.mp hlast
    have hdistinct := Json.hereditary_distinct.member? h hvalue
    have hnull : value ≠ .null := by
      intro hnull
      subst hnull
      cases rest with
      | nil => cases hrest
      | cons next rest => cases hrest
    cases patch with
    | object members =>
      have hfind : Members.find? members key = some value := hvalue
      have hmember : (merge target (.object members)).member? key =
          some (merge ((target.member? key).getD .null) value) := by
        rw [member?_merge_object h.1, hfind, patchedValue_of_ne_null _ hnull]
      rw [under?_cons, hmember, Option.bind_some, ih hdistinct hrest, getD_under?_cons]
    | _ => cases hvalue

/-- Behind an object of the patch the next key settles what stands there. -/
theorem under?_merge_behind {patch : Json} (h : patch.Distinct) {front : List String}
    {last : List (String × Json)} (hlast : patch.under? front = some (.object last))
    (target : Json) (key : String) (rest : List String) :
    (merge target patch).under? (front ++ key :: rest) =
      (patchedValue (((target.under? front).getD .null).member? key)
        (Members.find? last key)).bind fun part => part.under? rest := by
  have hkeys := nodup_of_under? h hlast
  rw [under?_append, under?_merge h hlast, Option.bind_some, under?_cons,
    member?_merge_object hkeys]

theorem under?_append_cons (target : Json) (front : List String) (key : String)
    (rest : List String) : target.under? (front ++ key :: rest) =
      (((target.under? front).getD .null).member? key).bind fun part => part.under? rest := by
  rw [under?_append]
  cases target.under? front with
  | none => rfl
  | some part => exact under?_cons part key rest

theorem patchedAt_of_isGreatest {target patch : Json} (h : patch.Distinct) {path : List String}
    {m : Nat} (hm : IsGreatest {m | ObjectsAlong patch path m} m) :
    PatchedAt target patch (merge target patch) path m := by
  obtain ⟨last, hlast⟩ := hm.1.object m le_rfl
  cases hkey : path[m]? with
  | none =>
    have hwhole : m = path.length :=
      Nat.le_antisymm hm.1.le_length (List.getElem?_eq_none_iff.mp hkey)
    rw [hwhole, List.take_length] at hlast
    have hresult := under?_merge h hlast target
    rw [merge_object] at hresult
    exact .object hwhole hresult
  | some key =>
    have hkeys := nodup_of_under? h hlast
    have hpath : path = path.take m ++ key :: path.drop (m + 1) := by
      obtain ⟨hlt, rfl⟩ := List.getElem?_eq_some_iff.mp hkey
      rw [← List.drop_eq_getElem_cons hlt, List.take_append_drop]
    have hresult := under?_merge_behind h hlast target key (path.drop (m + 1))
    rw [← hpath] at hresult
    cases hvalue : Members.find? last key with
    | none =>
      rw [hvalue, patchedValue, ← under?_append_cons, ← hpath] at hresult
      exact .untouched hkey hlast (Members.find?_eq_none_iff.mp hvalue) hresult
    | some value =>
      have hmem := Members.mem_of_find? hvalue
      by_cases hnull : value = .null
      · subst hnull
        rw [hvalue] at hresult
        exact .removed hkey hlast hmem hresult
      · have hobject : ∀ members, value ≠ .object members := by
          rintro members rfl
          have hsucc := hm.2 (hm.1.succ hkey hlast hvalue)
          omega
        rw [hvalue, patchedValue_of_ne_null _ hnull, merge_of_not_object _ hobject] at hresult
        exact .replaced hkey hlast hmem hnull hobject hresult

/-- The members of the object at a path; none where no object stands. -/
def membersUnder (value : Json) (path : List String) : List (String × Json) :=
  targetMembers ((value.under? path).getD .null)

/-- A patch by paths: what stands at each path in the result, and in which order the keys
of every object stand that the patch merges into. -/
theorem merge_by_paths {patch : Json} (h : patch.Distinct) (target : Json) :
    ((∀ members, patch ≠ .object members) → merge target patch = patch) ∧
    ∀ members, patch = .object members →
      (∀ path ≠ [], ∃ m, IsGreatest {m | ObjectsAlong patch path m} m ∧
        PatchedAt target patch (merge target patch) path m) ∧
      ∀ path last, patch.under? path = some (.object last) →
        ∃ merged, (merge target patch).under? path = some (.object merged) ∧
          merged.map Prod.fst =
            ((membersUnder target path).map Prod.fst).filter (fun key => (key, .null) ∉ last) ++
              (last.filter fun m => m.2 ≠ .null ∧
                m.1 ∉ (membersUnder target path).map Prod.fst).map Prod.fst := by
  refine ⟨merge_of_not_object target, fun members hpatch => ⟨fun path _ => ?_, ?_⟩⟩
  · subst hpatch
    obtain ⟨m, hm⟩ := exists_greatest_objectsAlong members path
    exact ⟨m, hm, patchedAt_of_isGreatest h hm⟩
  · intro path last hlast
    refine ⟨mergeMembers (membersUnder target path) last, under?_merge h hlast target, ?_⟩
    exact keys_mergeMembers (nodup_of_under? h hlast) _

def nestedTarget : Json :=
  .object [("a", .object [("b", .bool true), ("c", .array [.null])]), ("d", .string "x")]

def nestedPatch : Json :=
  .object [("d", .object [("e", .null)]),
    ("a", .object [("f", .object [("g", .null)]), ("b", .null)])]

theorem merge_by_paths_below_member :
    nestedPatch.Distinct ∧ (∃ members, nestedPatch = .object members) ∧
    (∃ m, IsGreatest {m | ObjectsAlong nestedPatch ["a", "c"] m} m ∧
      PatchedAt nestedTarget nestedPatch (merge nestedTarget nestedPatch) ["a", "c"] m) ∧
    ∃ merged, (merge nestedTarget nestedPatch).under? ["a"] = some (.object merged) ∧
      merged.map Prod.fst = ["c", "f"] := by
  have hdistinct : nestedPatch.Distinct := by decide +kernel
  obtain ⟨-, hpaths⟩ := merge_by_paths hdistinct nestedTarget
  obtain ⟨hresults, hkeys⟩ := hpaths _ rfl
  obtain ⟨merged, hmerged, hnames⟩ := hkeys ["a"] _ rfl
  refine ⟨hdistinct, ⟨_, rfl⟩, hresults ["a", "c"] (List.cons_ne_nil _ _), merged, hmerged, ?_⟩
  rw [hnames]
  decide +kernel

end ApiTypes.Patch
